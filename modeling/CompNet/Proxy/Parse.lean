import CompNet.Lib.CString
import CompNet.Lib.Decimal
import Mathlib.Algebra.Order.Ring.Int

/-!
# The request parser and printer

`proxy_parse.c`.  The copy of the request that the parser reads is never
written, so a pointer into it is the bytes from there on.  The request line
lives in a buffer of its own, which `strtok_r` cuts into pieces; the fields of a
parsed request are offsets into that buffer and are read as C strings.  `none`
stands for a read outside an object.
-/

namespace CompNet.Proxy

open CompNet.Lib

abbrev Bytes := List UInt8

/-! ## Characters -/

def space : UInt8 := 32
def slash : UInt8 := 47
def colon : UInt8 := 58

/-- `"\r\n"`. -/
def crlf : Bytes := [13, 10]

theorem zero_notMem_crlf : 0 ∉ crlf := by decide

theorem colon_notMem_crlf : colon ∉ crlf := by decide

/-- A line end behind a text without one is found where it stands. -/
theorem strstr_crlf {pre post : Bytes} (fresh : ¬ crlf <:+: pre) :
    strstr crlf (pre ++ crlf ++ post) = some pre.length := by
  rw [List.append_assoc]
  exact strstr_pair (by decide) fresh

theorem drop_crlf (pre post : Bytes) : (pre ++ crlf ++ post).drop (pre.length + 2) = post :=
  List.drop_left' (by simp [crlf])

/-- `"HTTP/"`. -/
def httpSlash : Bytes := [72, 84, 84, 80, 47]

def isSpace (c : UInt8) : Bool := c == space
def isSlash (c : UInt8) : Bool := c == slash
def isColon (c : UInt8) : Bool := c == colon

/-- A member of the set that `strtok_r` takes `"://"` for. -/
def isColonOrSlash (c : UInt8) : Bool := c == colon || c == slash

/-! ## Parsed requests -/

/-- `struct ParsedRequest`.  A removed header leaves an empty slot behind. -/
structure ParsedRequest where
  buf : Option Bytes
  method : Option Nat
  protocol : Option Nat
  host : Option Nat
  port : Option Nat
  path : Option Bytes
  version : Option Nat
  headers : List (Option (Bytes × Bytes))
  headerslen : Nat
  deriving DecidableEq, Repr

/-- `ParsedRequest_create`; `port` is left unset there and is written before it
is read. -/
def parsedRequestCreate : ParsedRequest where
  buf := none
  method := none
  protocol := none
  host := none
  port := none
  path := none
  version := none
  headers := []
  headerslen := 8

/-! ## Headers -/

/-- `ParsedHeader_get`: the first slot with the key. -/
def parsedHeaderGet (key : Bytes) : List (Option (Bytes × Bytes)) → Option (Bytes × Bytes)
  | [] => none
  | none :: rest => parsedHeaderGet key rest
  | some header :: rest => if header.1 = key then some header else parsedHeaderGet key rest

/-- `ParsedHeader_remove`: the first slot with the key loses it. -/
def parsedHeaderRemove (key : Bytes) : List (Option (Bytes × Bytes)) → List (Option (Bytes × Bytes))
  | [] => []
  | none :: rest => none :: parsedHeaderRemove key rest
  | some header :: rest =>
      if header.1 = key then none :: rest else some header :: parsedHeaderRemove key rest

/-- `ParsedHeader_set`. -/
def parsedHeaderSet (pr : ParsedRequest) (key value : Bytes) : ParsedRequest :=
  let headers := parsedHeaderRemove key pr.headers
  { pr with
    headers := headers ++ [some (key, value)]
    headerslen :=
      if pr.headerslen ≤ headers.length + 1 then pr.headerslen * 2 else pr.headerslen }

/-- `ParsedHeader_parse` on the line at a pointer: the key ends at the first
colon of the whole string, and the value starts two bytes behind it.  Where no
line end follows, the length of the value is undefined. -/
def parsedHeaderParse (pr : ParsedRequest) (line : Bytes) : Option (Int × ParsedRequest) := do
  let text ← cstring line
  match text.idxOf? colon with
  | none => some (-1, pr)
  | some i =>
      let index1 := line.drop (i + 2)
      let rest ← cstring index1
      let j ← strstr crlf rest
      some (0, parsedHeaderSet pr (line.take i) (index1.take j))

/-- The header loop of `ParsedRequest_parse`, from `currentHeader` on. -/
def parseHeaders : Nat → ParsedRequest → Bytes → Option (Int × ParsedRequest)
  | 0, _, _ => none
  | _ + 1, _, [] => none
  | fuel + 1, pr, c :: rest =>
      if c = 0 ∨ (c = 13 ∧ rest.head? = some 10) then some (0, pr)
      else
        match parsedHeaderParse pr (c :: rest) with
        | none => none
        | some (ret, pr) =>
            if ret ≠ 0 then some (-1, pr)
            else
              match cstring (c :: rest) with
              | none => none
              | some text =>
                  match strstr crlf text with
                  | none => some (0, pr)
                  | some i =>
                      if (text.drop i).length < 2 then some (0, pr)
                      else parseHeaders fuel pr ((c :: rest).drop (i + 2))

/-! ## The request line -/

inductive Errno
  | einval
  | other
  deriving DecidableEq, Repr

/-- A value as a 64-bit `long`, and `errno`, which an overflow sets to `ERANGE`. -/
def clampLong (errno : Errno) (value : Int) : Int × Errno :=
  if value > 2 ^ 63 - 1 then (2 ^ 63 - 1, .other)
  else if value < -2 ^ 63 then (-2 ^ 63, .other)
  else (value, errno)

/-- `strtol (s, NULL, 10)` and `errno` afterwards. -/
def strtol (errno : Errno) (s : Bytes) : Int × Errno :=
  let signed := scanSign (s.dropWhile isspace)
  clampLong errno (signed.1 * digitsValue (signed.2.takeWhile isdigit))

/-- How the request line parser stops early. -/
inductive Stop
  | outOfBounds
  | rejected
  deriving DecidableEq, Repr

def inBounds {α : Type} : Option α → Except Stop α
  | none => .error .outOfBounds
  | some a => .ok a

/-- `return -1` on a `NULL`. -/
def orReject {α : Type} : Option α → Except Stop α
  | none => .error .rejected
  | some a => .ok a

def rejectIf (bad : Bool) : Except Stop Unit := if bad then .error .rejected else .ok ()

/-- `strlen`. -/
def strlen (mem : Bytes) (s : Nat) : Except Stop Nat :=
  inBounds ((cstring (mem.drop s)).map List.length)

/-- The request line's buffer after all cuts, and the pointers into it. -/
structure RequestLine where
  mem : Bytes
  method : Nat
  protocol : Nat
  host : Nat
  port : Option Nat
  path : Bytes
  version : Nat
  deriving DecidableEq, Repr

/-- The path as `ParsedRequest_parse` stores it, in memory of its own. -/
def copyPath (mem : Bytes) : Option Nat → Except Stop Bytes
  | none => .ok [slash]
  | some p => do
      let text ← inBounds (cstring (mem.drop p))
      rejectIf (text.head? == some slash)
      pure (slash :: text)

/-- The test of the port: an `int` that is 0 while `errno` is `EINVAL`. -/
def checkPort (errno : Errno) (mem : Bytes) : Option Nat → Except Stop Unit
  | none => .ok ()
  | some p => do
      let text ← inBounds (cstring (mem.drop p))
      let (value, errno) := strtol errno text
      rejectIf (value % 2 ^ 32 == 0 && errno == .einval)

/-- The first part of `ParsedRequest_parse` on the request line: the buffer with
`method` and `full_addr` cut out, the two pointers, and `version`, which is
taken to stand one byte behind the address. -/
def readWords (line : Bytes) : Except Stop (Bytes × Nat × Nat × Nat) := do
  let (mem, method, save) ← inBounds (strtokR isSpace (line ++ [0]) 0)
  let method ← orReject method
  let (mem, fullAddr, _) ← inBounds (strtokR isSpace mem save)
  let fullAddr ← orReject fullAddr
  let addrLen ← strlen mem fullAddr
  let version := fullAddr + addrLen + 1
  let versionText ← inBounds (cstring (mem.drop version))
  rejectIf (!httpSlash.isPrefixOf versionText)
  pure (mem, method, fullAddr, version)

/-- The second part: `protocol` and the whole host part, and where the path
begins.  The length behind the scheme is taken three bytes behind the
protocol's length, counted from the start of the address. -/
def readAuthority (mem : Bytes) (fullAddr : Nat) : Except Stop (Bytes × Nat × Nat × Nat) := do
  let (mem, protocol, save) ← inBounds (strtokR isColonOrSlash mem fullAddr)
  let protocol ← orReject protocol
  let protocolLen ← strlen mem protocol
  let absUriLen ← strlen mem (fullAddr + protocolLen + 3)
  let (mem, host, save) ← inBounds (strtokR isSlash mem save)
  let host ← orReject host
  let hostLen ← strlen mem host
  rejectIf (hostLen == absUriLen)
  pure (mem, protocol, host, save)

/-- The third part: the path. -/
def readPath (mem : Bytes) (save : Nat) : Except Stop (Bytes × Bytes) := do
  let (mem, pathToken, _) ← inBounds (strtokR isSpace mem save)
  let path ← copyPath mem pathToken
  pure (mem, path)

/-- The last part: the host part is cut at its colon. -/
def readHostPort (errno : Errno) (mem : Bytes) (host : Nat) :
    Except Stop (Bytes × Nat × Option Nat) := do
  let (mem, host, save) ← inBounds (strtokR isColon mem host)
  let (mem, port, _) ← inBounds (strtokR isSlash mem save)
  let host ← orReject host
  checkPort errno mem port
  pure (mem, host, port)

/-- `ParsedRequest_parse` on the request line. -/
def parseRequestLine (errno : Errno) (line : Bytes) : Except Stop RequestLine := do
  let (mem, method, fullAddr, version) ← readWords line
  let (mem, protocol, host, save) ← readAuthority mem fullAddr
  let (mem, path) ← readPath mem save
  let (mem, host, port) ← readHostPort errno mem host
  pure { mem, method, protocol, host, port, path, version }

/-! ## Parsing a request -/

/-- A request with the pointers of its request line set. -/
def ParsedRequest.withLine (pr : ParsedRequest) (line : RequestLine) : ParsedRequest :=
  { pr with
    buf := some line.mem
    method := some line.method
    protocol := some line.protocol
    host := some line.host
    port := line.port
    path := some line.path
    version := some line.version }

/-- `ParsedRequest_parse`. -/
def parsedRequestParse (errno : Errno) (pr : ParsedRequest) (buf : Bytes) :
    Option (Int × ParsedRequest) :=
  if pr.buf.isSome then some (-1, pr)
  else if buf.length < 4 ∨ buf.length > 65535 then some (-1, pr)
  else do
    let tmpBuf := buf ++ [0]
    let text ← cstring tmpBuf
    if (strstr (crlf ++ crlf) text).isNone then some (-1, pr)
    else
      let i ← strstr crlf text
      match parseRequestLine errno (tmpBuf.take i) with
      | .error .outOfBounds => none
      | .error .rejected => some (-1, { pr with buf := none, path := none })
      | .ok line => parseHeaders tmpBuf.length (pr.withLine line) (tmpBuf.drop (i + 2))

/-! ## Reading and printing a parsed request -/

/-- The texts behind the pointers of a parsed request. -/
structure Fields where
  method : Bytes
  protocol : Bytes
  host : Bytes
  port : Option Bytes
  path : Bytes
  version : Bytes
  deriving DecidableEq, Repr

/-- The pointers of a request line, read as C strings. -/
def RequestLine.fields (line : RequestLine) : Option Fields := do
  let method ← cstring (line.mem.drop line.method)
  let protocol ← cstring (line.mem.drop line.protocol)
  let host ← cstring (line.mem.drop line.host)
  let version ← cstring (line.mem.drop line.version)
  match line.port with
  | none => some { method, protocol, host, port := none, path := line.path, version }
  | some p => do
      let port ← cstring (line.mem.drop p)
      some { method, protocol, host, port := some port, path := line.path, version }

/-- The request line a parsed request holds. -/
def ParsedRequest.line (pr : ParsedRequest) : Option RequestLine := do
  let mem ← pr.buf
  let method ← pr.method
  let protocol ← pr.protocol
  let host ← pr.host
  let path ← pr.path
  let version ← pr.version
  some { mem, method, protocol, host, port := pr.port, path, version }

def ParsedRequest.fields (pr : ParsedRequest) : Option Fields := do
  let line ← pr.line
  line.fields

@[simp] theorem ParsedRequest.fields_withLine (pr : ParsedRequest) (line : RequestLine) :
    (pr.withLine line).fields = line.fields := rfl

/-- The headers that were not removed, in the order of their slots. -/
def ParsedRequest.liveHeaders (pr : ParsedRequest) : List (Bytes × Bytes) :=
  pr.headers.filterMap id

/-- `ParsedRequest_requestLineLen`. -/
def requestLineLen (f : Fields) : Nat :=
  f.method.length + 1 + f.protocol.length + 3 + f.host.length + 1 + f.version.length + 2 +
    (match f.port with
      | none => 0
      | some port => port.length + 1) +
    f.path.length

/-- What an `int` holds after `n` was assigned to it. -/
def asInt (n : Int) : Int := n.bmod (2 ^ 32)

/-- `ParsedHeader_lineLen`. -/
def lineLen : Option (Bytes × Bytes) → Nat
  | none => 0
  | some (key, value) => key.length + value.length + 4

/-- `ParsedHeader_headersLen`.  The lengths are added up in an `int`, and what it
holds in the end is returned as a `size_t`. -/
def headersLen (headers : List (Option (Bytes × Bytes))) : Nat :=
  let len := headers.foldl (fun len slot => asInt (len + lineLen slot)) 0
  (asInt (len + 2) % 2 ^ 64).toNat

/-- `ParsedRequest_totalLen`. -/
def parsedRequestTotalLen (pr : ParsedRequest) : Nat :=
  match pr.fields with
  | none => 0
  | some f => (requestLineLen f + headersLen pr.headers) % 2 ^ 64

/-- The port with its colon, if there is one. -/
def portText : Option Bytes → Bytes
  | none => []
  | some port => colon :: port

/-- What `ParsedRequest_printRequestLine` writes. -/
def printRequestLine (f : Fields) : Bytes :=
  f.method ++ [space] ++ f.protocol ++ [colon, slash, slash] ++ f.host ++ portText f.port ++
    f.path ++ [space] ++ f.version ++ crlf

/-- One header line. -/
def printHeader (header : Bytes × Bytes) : Bytes :=
  header.1 ++ [colon, space] ++ header.2 ++ crlf

/-- What `ParsedHeader_printHeaders` writes. -/
def printHeaders (headers : List (Option (Bytes × Bytes))) : Bytes :=
  (headers.map fun header =>
    match header with
    | none => []
    | some header => printHeader header).flatten ++ crlf

/-- `ParsedRequest_unparse` into a buffer of `buflen` bytes: the return value and
the bytes written from the start of the buffer. -/
def parsedRequestUnparse (pr : ParsedRequest) (buflen : Nat) : Int × Bytes :=
  match pr.fields with
  | none => (-1, [])
  | some f =>
      if buflen < requestLineLen f then (-1, [])
      else if buflen - requestLineLen f < headersLen pr.headers then (-1, printRequestLine f)
      else (0, printRequestLine f ++ printHeaders pr.headers)

theorem length_printRequestLine (f : Fields) : (printRequestLine f).length = requestLineLen f := by
  cases port : f.port <;> simp [printRequestLine, requestLineLen, portText, port, crlf] <;> omega

theorem length_printHeaders (headers : List (Option (Bytes × Bytes))) :
    (printHeaders headers).length = (headers.map lineLen).sum + 2 := by
  induction headers with
  | nil => rfl
  | cons header rest ih =>
      cases header with
      | none => simpa [printHeaders, lineLen] using ih
      | some header =>
          simp only [printHeaders, List.map_cons, List.flatten_cons, List.length_append,
            List.sum_cons] at ih ⊢
          simp only [printHeader, lineLen, crlf, List.length_append, List.length_cons,
            List.length_nil] at ih ⊢
          omega

/-- The `int` holds the length of the header lines, modulo 2^32. -/
theorem foldl_lineLen (headers : List (Option (Bytes × Bytes))) (n : Int) :
    headers.foldl (fun len slot => asInt (len + lineLen slot)) (asInt n) =
      asInt (n + (headers.map lineLen).sum) := by
  induction headers generalizing n with
  | nil => rw [List.map_nil, List.sum_nil, Int.natCast_zero, Int.add_zero]; rfl
  | cons header rest ih =>
      have step : asInt (asInt n + lineLen header) = asInt (n + lineLen header) :=
        Int.bmod_add_bmod
      rw [List.foldl_cons, step, ih, List.map_cons, List.sum_cons, Int.natCast_add, Int.add_assoc]

theorem headersLen_eq (headers : List (Option (Bytes × Bytes))) :
    headersLen headers = (asInt (printHeaders headers).length % 2 ^ 64).toNat := by
  have zero : (0 : Int) = asInt 0 := rfl
  have two (n : Int) : asInt (asInt n + 2) = asInt (n + 2) := Int.bmod_add_bmod
  rw [headersLen, zero, foldl_lineLen, two, length_printHeaders, Int.zero_add, Int.natCast_add]
  rfl

/-- The headers are counted right as long as their length fits into the `int`. -/
theorem headersLen_small {headers : List (Option (Bytes × Bytes))}
    (small : (printHeaders headers).length < 2 ^ 31) :
    headersLen headers = (printHeaders headers).length := by
  have same : asInt (printHeaders headers).length = (printHeaders headers).length :=
    Int.bmod_eq_of_le (by omega) (by omega)
  rw [headersLen_eq, same]
  omega

/-- A buffer of `totalLen` bytes is just enough. -/
theorem parsedRequestUnparse_totalLen {pr : ParsedRequest} {f : Fields}
    (fields : pr.fields = some f) (small : (printHeaders pr.headers).length < 2 ^ 31)
    (fits : requestLineLen f + (printHeaders pr.headers).length < 2 ^ 64) :
    parsedRequestUnparse pr (parsedRequestTotalLen pr) =
      (0, printRequestLine f ++ printHeaders pr.headers) := by
  have total : parsedRequestTotalLen pr =
      requestLineLen f + (printHeaders pr.headers).length := by
    simp only [parsedRequestTotalLen, fields, headersLen_small small]
    exact Nat.mod_eq_of_lt fits
  simp only [parsedRequestUnparse, fields, total, headersLen_small small]
  rw [if_neg (by omega), if_neg (by omega)]

/-- What is printed. -/
theorem parsedRequestUnparse_text {pr : ParsedRequest} {f : Fields} {buflen : Nat} {text : Bytes}
    (fields : pr.fields = some f) (printed : parsedRequestUnparse pr buflen = (0, text)) :
    text = printRequestLine f ++ printHeaders pr.headers := by
  rw [parsedRequestUnparse, fields] at printed
  simp only at printed
  split at printed
  · cases printed
  · split at printed
    · cases printed
    · exact (Prod.mk.inj printed).2.symm

end CompNet.Proxy
