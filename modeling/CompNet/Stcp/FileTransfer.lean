import CompNet.Lib.Decimal
import CompNet.Lib.Dialogue
import CompNet.Stcp.Hosts
import Mathlib.Data.List.DropRight
import Mathlib.Data.Int.Init

/-!
# The file transfer programs

`client.c` sends the names that the user types, one to a line, and stores what
comes back; `server.c` answers each name with a line that tells the length of
the file, and the file.  Both read lines with `get_nvt_line`, a byte at a time
and without a bound: where it would store behind the end of its caller's array,
the model stops with `overrun`.  A loop of the source that nothing bounds takes
`fuel`.  What the server's `open` and `read` and the client's `fopen` and
`fwrite` give is a parameter, failures included; the results are about files that
can be read and a disk that takes them.

The programs meet in the pipes between them.  They take turns, so one exchange
is a line to the server, and a line and a file back; however the two processes
are scheduled and however `myread` cuts what it returns, the client ends with
the files that it asked for.  What they do over pipes they do over STCP.
-/

namespace CompNet.Stcp

open CompNet.Lib

/-! ## Strings -/

/-- What a C string that starts `bytes` holds. -/
def untilNul (bytes : Bytes) : Bytes := bytes.takeWhile (· != 0)

/-- `strrchr`: the string in front of the last `c`, and behind it. -/
def strrchr (c : UInt8) (s : Bytes) : Option (Bytes × Bytes) :=
  if c ∈ s then some ((s.rdropWhile (· != c)).dropLast, s.rtakeWhile (· != c)) else none

/-- What `%d` stores in an `int`: the number is read as a `long`, and cut. -/
def toInt (n : Int) : Int := Int.bmod (max (-2 ^ 63) (min n (2 ^ 63 - 1))) (2 ^ 32)

/-- `"\r\n"`. -/
def lineEnd : Bytes := [13, 10]

/-! ## `get_nvt_line` -/

inductive NvtLine
  | failed
  | overrun
  | line (text : Bytes)
  deriving DecidableEq, Repr

/-- One iteration of `get_nvt_line` behind `stored`: `atEnd` is the result at the
end of the stream, and `store` goes on with the byte that was read. -/
def nvtStep (lastChar : UInt8) (stored : Bytes) (atEnd : NvtLine)
    (store : UInt8 → StreamProg UInt8 NvtLine) : StreamProg UInt8 NvtLine :=
  .read 1 fun len got =>
    if len < 0 then .ret .failed
    else if len = 0 then .ret atEnd
    else
      let thisChar := got.headD 0
      if lastChar = 13 ∧ thisChar = 10 then .ret (.line (untilNul stored.dropLast))
      else store thisChar

/-- The loop of `get_nvt_line`, with room for so many bytes behind those that are
stored.  At the end of the stream, what is stored is the line. -/
def nvtLoop : Nat → UInt8 → Bytes → StreamProg UInt8 NvtLine
  | 0, lastChar, stored => nvtStep lastChar stored .overrun fun _ => .ret .overrun
  | room + 1, lastChar, stored =>
      nvtStep lastChar stored (.line (untilNul stored)) fun thisChar =>
        nvtLoop room thisChar (stored ++ [thisChar])

/-- `get_nvt_line` into an array of `size` bytes. -/
def getNvtLine (size : Nat) : StreamProg UInt8 NvtLine := nvtLoop size 0 []

/-! ## server.c -/

/-- What is behind a descriptor of `open`: a file, or a name that opens but cannot be read. -/
structure OpenFile where
  /-- What `lseek` to the end returns, as `%lu` prints it. -/
  size : UInt64
  /-- What `read` returns, call after call, up to the call that returns 0 or fails. -/
  pieces : List Bytes
  pieces_fit : ∀ piece ∈ pieces, 0 < piece.length ∧ piece.length ≤ 5000
  /-- The last call returns -1. -/
  fails : Bool

/-- All that can be read. -/
def OpenFile.contents (file : OpenFile) : Bytes := file.pieces.flatten

/-- A file that can be read to its end, which is where `lseek` has it, and whose length is an
`int`. -/
structure OpenFile.Whole (file : OpenFile) : Prop where
  reads : file.fails = false
  size : file.size.toNat = file.contents.length
  small : file.contents.length < 2 ^ 31

theorem OpenFile.Whole.size_lt {file : OpenFile} (whole : file.Whole) :
    file.size.toNat < 2 ^ 31 := by
  rw [whole.size]
  exact whole.small

/-- The files of the server, which do not change while it runs. -/
structure Files where
  /-- `access(line, R_OK)` succeeds. -/
  readable : Bytes → Bool
  /-- What `open` finds. -/
  finds : Bytes → Option OpenFile

/-- `",-1,File does not exist or access denied"`. -/
def accessDenied : Bytes :=
  [44, 45, 49, 44, 70, 105, 108, 101, 32, 100, 111, 101, 115, 32, 110, 111, 116, 32, 101, 120, 105,
    115, 116, 32, 111, 114, 32, 97, 99, 99, 101, 115, 115, 32, 100, 101, 110, 105, 101, 100]

/-- `",-1,File could not be opened"`. -/
def notOpened : Bytes :=
  [44, 45, 49, 44, 70, 105, 108, 101, 32, 99, 111, 117, 108, 100, 32, 110, 111, 116, 32, 98, 101,
    32, 111, 112, 101, 110, 101, 100]

/-- The file behind the descriptor of `process_line`. -/
def Files.opened (files : Files) (line : Bytes) : Option OpenFile :=
  if line = [] ∨ files.readable line = false then none else files.finds line

/-- What can be read there. -/
def Files.contents (files : Files) (line : Bytes) : Option Bytes :=
  (files.opened line).map OpenFile.contents

theorem Files.contents_eq {files : Files} {name : Bytes} {found : Option OpenFile}
    (opened : files.opened name = found) : files.contents name = found.map OpenFile.contents := by
  rw [Files.contents, opened]

/-- What the response says about `line`. -/
def Files.verdict (files : Files) (line : Bytes) : Bytes :=
  if line = [] ∨ files.readable line = false then accessDenied
  else
    match files.finds line with
    | none => notOpened
    | some file => 44 :: decimal file.size.toNat ++ [44, 79, 107]

/-- The response without its CRLF. -/
def Files.response (files : Files) (line : Bytes) : Bytes := line ++ files.verdict line

/-- The loop that sends the file. -/
def sendContents (fails : Bool) : List Bytes → StreamProg UInt8 Int
  | [] => .ret (if fails then -1 else 0)
  | piece :: pieces =>
      .write piece fun rc => if rc < 0 then .ret (-1) else sendContents fails pieces

/-- `process_line`. -/
def processLine (files : Files) (line : Bytes) : StreamProg UInt8 Int :=
  .write (files.response line ++ lineEnd) fun rc =>
    if rc < 0 then .ret (-1)
    else
      match files.opened line with
      | none => .ret 0
      | some file => sendContents file.fails file.pieces

inductive ServerEnd
  | done
  | overrun
  | outOfFuel
  deriving DecidableEq, Repr

/-- The loop of `do_connection`, with the lines it has printed. -/
def doConnection (files : Files) : Nat → List Bytes → StreamProg UInt8 (ServerEnd × List Bytes)
  | 0, requests => .ret (.outOfFuel, requests)
  | fuel + 1, requests =>
      getNvtLine 256 >>= fun
        | .failed => .ret (.done, requests)
        | .overrun => .ret (.overrun, requests)
        | .line line =>
            if line = [] then .ret (.done, requests)
            else
              processLine files line >>= fun rc =>
                if rc < 0 then .ret (.done, requests ++ [line])
                else doConnection files fuel (requests ++ [line])

/-! ## client.c -/

/-- `-f` and `-q`. -/
structure ClientOptions where
  filename : Option Bytes
  quiet : Bool

/-- Where the client stores files. -/
structure Disk where
  /-- Whether the `n`-th `fopen` of `rcvd` succeeds. -/
  opens : Nat → Bool
  /-- What gets into the `n`-th file of a piece that is read when so many bytes are missing:
  `fwrite` is called again only while it is interrupted. -/
  stores : Nat → Int → Bytes → Bytes

/-- A disk that takes all it is given. -/
structure Disk.Sound (disk : Disk) : Prop where
  opens : ∀ n, disk.opens n = true
  stores : ∀ n missing piece, disk.stores n missing piece = piece

/-- What the client makes of its input. -/
inductive Ask
  | stop
  | again (stdin : Bytes)
  | send (name stdin : Bytes)
  | overrun
  deriving DecidableEq, Repr

/-- The next name: the file of the command line, or the next line of the input
without its trailing white space.  The line is skipped if `pline <= line`, which
is so for a name of one byte as well. -/
def ask (options : ClientOptions) (stdin : Bytes) : Ask :=
  match options.filename with
  | some name => if name.length + 3 ≤ 1000 then .send name stdin else .overrun
  | none =>
      let read := fgets 999 stdin
      if read.1 = [] then .stop
      else
        let name := (untilNul read.1).rdropWhile isspace
        if name.length ≤ 1 then .again read.2
        else if name.length + 3 ≤ 1000 then .send name read.2
        else .overrun

/-- The length in a response; `length` keeps its value if the field does not
start like a number. -/
def parseResponse (length : Int) (line : Bytes) : Option Int :=
  match strrchr 44 line with
  | none => none
  | some (front, _) =>
      match strrchr 44 front with
      | none => none
      | some (_, lenstr) => some (((scanInt lenstr).map toInt).getD length)

inductive Download
  | outOfFuel
  | overrun
  | stopped (length : Int) (file : Bytes)
  deriving DecidableEq, Repr

/-- The loop that stores the file, `line` being the buffer.  `to_read` is an
`int`, but `myread` and `fwrite` take it for a `size_t`. -/
def download (stores : Int → Bytes → Bytes) (quiet : Bool) :
    Nat → Int → Bytes → StreamProg UInt8 Download
  | 0, _, _ => .ret .outOfFuel
  | fuel + 1, length, file =>
      if length = 0 then .ret (.stopped length file)
      else
        .read (min length 1000 % 2 ^ 64).toNat fun got data =>
          if got ≤ 0 then .ret (.stopped length file)
          else if 1000 < got then .ret .overrun
          else
            let toRead := min got (min length 1000)
            if quiet then download stores quiet fuel (length - toRead) file
            else if toRead < 0 then .ret .overrun
            else
              download stores quiet fuel (length - toRead)
                (file ++ stores length (data.take toRead.toNat))

inductive ClientEnd
  | finished
  | failed
  | short (missing : Int)
  | overrun
  | outOfFuel
  deriving DecidableEq, Repr

/-- The lines of the server that the client has printed, and what stood in the
file `rcvd` after each download. -/
structure ClientLog where
  printed : List Bytes := []
  rcvd : List Bytes := []
  deriving DecidableEq, Repr

/-- The loop of `loop_until_end`. -/
def loopUntilEnd (disk : Disk) (options : ClientOptions) :
    Nat → Int → Bytes → ClientLog → StreamProg UInt8 (ClientEnd × ClientLog)
  | 0, _, _, log => .ret (.outOfFuel, log)
  | fuel + 1, length, stdin, log =>
      match ask options stdin with
      | .stop => .ret (.finished, log)
      | .overrun => .ret (.overrun, log)
      | .again stdin => loopUntilEnd disk options fuel length stdin log
      | .send name stdin =>
          .write (name ++ lineEnd) fun rc =>
            if rc < 0 then .ret (.failed, log)
            else
              getNvtLine 1000 >>= fun
                | .failed => .ret (.failed, log)
                | .overrun => .ret (.overrun, log)
                | .line line =>
                    let log := { log with printed := log.printed ++ [line] }
                    match parseResponse length line with
                    | none => .ret (.failed, log)
                    | some length =>
                        if length = -1 then
                          if options.filename.isSome then .ret (.failed, log)
                          else loopUntilEnd disk options fuel length stdin log
                        else if disk.opens log.rcvd.length = false then .ret (.failed, log)
                        else
                          download (disk.stores log.rcvd.length) options.quiet
                            (length.natAbs + 1) length [] >>= fun
                            | .outOfFuel => .ret (.outOfFuel, log)
                            | .overrun => .ret (.overrun, log)
                            | .stopped missing file =>
                                let log := { log with rcvd := log.rcvd ++ [file] }
                                if missing ≠ 0 then .ret (.short missing, log)
                                else if options.filename.isSome then .ret (.finished, log)
                                else loopUntilEnd disk options fuel missing stdin log

/-! ## What the calls move -/

/-- A call that reads one byte. -/
theorem reads_byte {β : Type} {next : Int → Bytes → StreamProg UInt8 β} {c : UInt8}
    {items : Bytes} {result : β} (rest : (next 1 [c]).Reads items result) :
    (StreamProg.read 1 next).Reads (c :: items) result := by
  refine .read Nat.one_pos (by simp) fun k moves fits => ?_
  obtain rfl : k = 1 := by omega
  exact rest

/-- A byte that does not end the line is stored. -/
theorem nvtStep_reads {c lastChar : UInt8} {stored items : Bytes} {atEnd result : NvtLine}
    {store : UInt8 → StreamProg UInt8 NvtLine} (inside : ¬ (lastChar = 13 ∧ c = 10))
    (rest : (store c).Reads items result) :
    (nvtStep lastChar stored atEnd store).Reads (c :: items) result := by
  refine reads_byte ?_
  simp only [List.headD_cons, inside, if_false]
  exact rest

/-- A line without a CRLF in it is read up to the CRLF behind it. -/
theorem nvtLoop_reads {text : Bytes} {room : Nat} {lastChar : UInt8} (stored : Bytes)
    (clean : ¬ lineEnd <:+: lastChar :: text) (fits : text.length < room) :
    (nvtLoop room lastChar stored).Reads (text ++ lineEnd)
      (.line (untilNul (stored ++ text))) := by
  obtain ⟨room, rfl⟩ := Nat.exists_eq_succ_of_ne_zero (Nat.ne_of_gt (Nat.zero_lt_of_lt fits))
  rw [nvtLoop]
  induction text generalizing room lastChar stored with
  | nil =>
      refine nvtStep_reads (by rintro ⟨_, other⟩; exact absurd other (by decide)) ?_
      have last : (nvtLoop room 13 (stored ++ [13])).Reads [10] (.line (untilNul stored)) := by
        cases room <;>
          exact reads_byte (by simpa using StreamProg.Reads.ret (NvtLine.line (untilNul stored)))
      rw [List.append_nil]
      exact last
  | cons c text ih =>
      have inside : ¬ (lastChar = 13 ∧ c = 10) := by
        rintro ⟨rfl, rfl⟩
        exact clean ⟨[], text, rfl⟩
      have later : ¬ lineEnd <:+: c :: text := fun found =>
        clean (found.trans (List.suffix_cons lastChar _).isInfix)
      have fits' : text.length < room := Nat.lt_of_succ_lt_succ fits
      obtain ⟨room, rfl⟩ :=
        Nat.exists_eq_succ_of_ne_zero (Nat.ne_of_gt (Nat.zero_lt_of_lt fits'))
      have rest := ih (stored ++ [c]) later room fits'
      rw [List.append_assoc, List.singleton_append] at rest
      exact nvtStep_reads inside rest

theorem getNvtLine_reads {text : Bytes} (size : Nat) (clean : ¬ lineEnd <:+: text)
    (fits : text.length < size) :
    (getNvtLine size).Reads (text ++ lineEnd) (.line (untilNul text)) := by
  refine nvtLoop_reads [] ?_ fits
  rintro ⟨front, behind, cut⟩
  cases front with
  | nil => exact absurd (List.cons.inj cut).1 (by decide)
  | cons c front => exact clean ⟨front, behind, (List.cons.inj cut).2⟩

theorem sendContents_puts (pieces : List Bytes) :
    (sendContents false pieces).Puts pieces.flatten 0 := by
  induction pieces with
  | nil => exact .ret 0
  | cons piece pieces ih =>
      refine .write ?_
      rw [if_neg (by omega)]
      exact ih

theorem processLine_puts {files : Files} {line : Bytes}
    (whole : ∀ file, files.opened line = some file → file.Whole) :
    (processLine files line).Puts
      (files.response line ++ lineEnd ++ (files.contents line).getD []) 0 := by
  refine .write ?_
  rw [if_neg (by omega), Files.contents]
  cases found : files.opened line with
  | none => exact .ret 0
  | some file =>
      dsimp only
      rw [(whole file found).reads]
      exact sendContents_puts file.pieces

/-- A download reads as many bytes as were announced. -/
theorem download_reads {stores : Int → Bytes → Bytes} (takes : ∀ missing piece,
    stores missing piece = piece) (quiet : Bool) {fuel : Nat} (contents file : Bytes)
    (enough : contents.length < fuel) :
    (download stores quiet fuel contents.length file).Reads contents
      (.stopped 0 (if quiet then file else file ++ contents)) := by
  induction fuel generalizing contents file with
  | zero => exact absurd enough (Nat.not_lt_zero _)
  | succ fuel ih =>
      rw [download]
      by_cases none : contents = []
      · simpa [none] using StreamProg.Reads.ret (Download.stopped 0 file)
      · have positive := List.length_pos_iff.mpr none
        have count : (min (contents.length : Int) 1000 % 2 ^ 64).toNat =
            min contents.length 1000 := by
          omega
        rw [if_neg (by omega), count]
        refine .read (by omega) (Nat.min_le_left _ _) fun k moves fits => ?_
        have inside : k ≤ contents.length := Nat.le_trans fits (Nat.min_le_left _ _)
        have left : (contents.length : Int) - k = (contents.drop k).length := by
          rw [List.length_drop]
          omega
        have rest := fun file => ih (contents.drop k) file (by
          rw [List.length_drop]
          omega)
        have toRead : min (k : Int) (min contents.length 1000) = k := by omega
        rw [if_neg (by omega), if_neg (by omega), toRead]
        dsimp only
        rw [left]
        cases quiet with
        | true => simpa using rest file
        | false =>
            have stored := rest (file ++ contents.take k)
            rw [List.append_assoc, List.take_append_drop] at stored
            have taken : (contents.take k).take (k : Int).toNat = contents.take k := by
              rw [Int.toNat_natCast, List.take_take, Nat.min_self]
            rw [if_neg (by decide), if_neg (by omega), taken, takes]
            exact stored

/-- A whole file is read to its end, and a sound disk takes all of it. -/
theorem OpenFile.Whole.downloaded {file : OpenFile} (whole : file.Whole) {disk : Disk}
    (sound : disk.Sound) (n : Nat) (quiet : Bool) :
    (download (disk.stores n) quiet ((file.size.toNat : Int).natAbs + 1) file.size.toNat []).Reads
      file.contents (.stopped 0 (if quiet then [] else file.contents)) := by
  rw [Int.natAbs_natCast, whole.size]
  exact download_reads (sound.stores n) quiet file.contents [] (Nat.lt_succ_self _)

/-! ## What a response says -/

theorem strrchr_append {c : UInt8} {front behind : Bytes} (last : c ∉ behind) :
    strrchr c (front ++ c :: behind) = some (front, behind) := by
  have chars : ∀ b ∈ behind.reverse, (b != c) = true := by
    intro b member
    rw [bne_iff_ne]
    rintro rfl
    exact last (List.mem_reverse.mp member)
  have stop : ¬ (c != c) = true := by simp
  rw [strrchr, if_pos (by simp), List.rdropWhile, List.rtakeWhile]
  rw [List.reverse_append, List.reverse_cons, List.append_assoc,
    List.dropWhile_append_of_pos chars, List.takeWhile_append_of_pos chars]
  simp

/-- The name may have commas: only the last two are looked at. -/
theorem parseResponse_fields (name field remark : Bytes) {n : Int} (length : Int)
    (field' : 44 ∉ field) (remark' : 44 ∉ remark) (number : scanInt field = some n) :
    parseResponse length (name ++ 44 :: (field ++ 44 :: remark)) = some (toInt n) := by
  have cut : name ++ 44 :: (field ++ 44 :: remark) = (name ++ 44 :: field) ++ 44 :: remark := by
    simp
  simp only [parseResponse, cut, strrchr_append remark', strrchr_append field', number,
    Option.map_some, Option.getD_some]

theorem comma_notMem_decimal (n : Nat) : 44 ∉ decimal n := by
  intro member
  have digit := isdigit_decimal n 44 member
  revert digit
  decide

theorem toInt_of_lt {n : Nat} (small : n < 2 ^ 31) : toInt n = n := by
  unfold toInt
  have inside : max (-2 ^ 63) (min (n : Int) (2 ^ 63 - 1)) = n := by omega
  rw [inside, Int.bmod_eq_of_le] <;> omega

/-- What the client takes for the length: the one reported of the file, or -1 without one. -/
theorem parseResponse_response (files : Files) (name : Bytes) (length : Int)
    (small : ∀ file, files.opened name = some file → file.size.toNat < 2 ^ 31) :
    parseResponse length (files.response name) =
      some (match files.opened name with
        | none => -1
        | some file => file.size.toNat) := by
  unfold Files.response Files.verdict Files.opened at *
  split
  · exact parseResponse_fields _ [45, 49] _ length (by decide) (by decide) rfl
  · next readable =>
      rw [if_neg readable] at small
      cases found : files.finds name with
      | none => exact parseResponse_fields _ [45, 49] _ length (by decide) (by decide) rfl
      | some file =>
          have number : scanInt (decimal file.size.toNat ++ []) = some (file.size.toNat : Int) :=
            scanInt_decimal _ (by simp)
          rw [List.append_nil] at number
          have fields := parseResponse_fields name _ [79, 107] length
            (comma_notMem_decimal _) (by decide) number
          rw [toInt_of_lt (small file found)] at fields
          exact fields

/-- The response is printed on one line. -/
theorem Files.verdict_plain (files : Files) (name : Bytes) :
    0 ∉ files.verdict name ∧ 10 ∉ files.verdict name := by
  unfold Files.verdict
  split
  · exact ⟨by decide, by decide⟩
  · split
    · exact ⟨by decide, by decide⟩
    · next file _ =>
        have digits := isdigit_decimal file.size.toNat
        refine ⟨?_, ?_⟩ <;>
        · intro member
          rcases List.mem_append.mp member with number | remark
          · rcases List.mem_cons.mp number with comma | digit
            · exact absurd comma (by decide)
            · exact absurd (digits _ digit) (by decide)
          · revert remark
            decide

theorem Files.length_verdict_le (files : Files) (name : Bytes) :
    (files.verdict name).length ≤ 50 := by
  unfold Files.verdict
  split
  · decide
  · split
    · decide
    · next file _ =>
        have digits := length_decimal_le (k := 19) (n := file.size.toNat)
          (Nat.lt_trans file.size.toNat_lt (by decide))
        simp only [List.length_append, List.length_cons, List.length_nil]
        omega

/-! ## One exchange -/

/-- One value for each side. -/
def Side.both {β : Side → Type} (atActive : β .active) (atPassive : β .passive) :
    ∀ side, β side
  | .active => atActive
  | .passive => atPassive

/-- What the client returns, and what the server does. -/
abbrev Returns : Side → Type
  | .active => ClientEnd × ClientLog
  | .passive => ServerEnd × List Bytes

/-- A client and a server, and what is on its way to either. -/
def talk (client : StreamProg UInt8 (ClientEnd × ClientLog))
    (server : StreamProg UInt8 (ServerEnd × List Bytes)) (toClient toServer : Bytes) :
    Dialogue Side UInt8 Returns where
  program := Side.both (β := fun side => StreamProg UInt8 (Returns side)) client server
  pipe := Side.both (β := fun _ => Bytes) toClient toServer

theorem talk_silent (client : StreamProg UInt8 (ClientEnd × ClientLog))
    (server : StreamProg UInt8 (ServerEnd × List Bytes)) :
    talk client server [] [] =
      ⟨Side.both (β := fun side => StreamProg UInt8 (Returns side)) client server,
        fun _ => []⟩ := by
  rw [talk, Dialogue.mk.injEq]
  refine ⟨rfl, ?_⟩
  funext side
  cases side <;> rfl

section Exchange

variable {client client' : StreamProg UInt8 (ClientEnd × ClientLog)}
  {server server' : StreamProg UInt8 (ServerEnd × List Bytes)} {toClient toServer given : Bytes}
  {taken : Nat} {result : ∀ side, Returns side}

theorem talk_turn_active :
    (talk client server toClient toServer).turn Side.other .active taken given client' =
      talk client' server (toClient.drop taken) (toServer ++ given) := by
  unfold Dialogue.turn talk
  rw [Dialogue.mk.injEq]
  refine ⟨?_, ?_⟩ <;> funext side <;> cases side <;> simp [Side.both, Side.other]

theorem talk_turn_passive :
    (talk client server toClient toServer).turn Side.other .passive taken given server' =
      talk client server' (toClient ++ given) (toServer.drop taken) := by
  unfold Dialogue.turn talk
  rw [Dialogue.mk.injEq]
  refine ⟨?_, ?_⟩ <;> funext side <;> cases side <;> simp [Side.both, Side.other]

/-- A name that fits into the arrays and is one line, and whose file is whole. -/
structure Files.Askable (files : Files) (name : Bytes) : Prop where
  nonempty : name ≠ []
  clean : ¬ lineEnd <:+: name
  noNul : 0 ∉ name
  fits : name.length ≤ 255
  whole : ∀ file, files.opened name = some file → file.Whole

theorem untilNul_of_clean {text : Bytes} (clean : 0 ∉ text) : untilNul text = text := by
  rw [untilNul, List.takeWhile_eq_self_iff]
  intro c member
  rw [bne_iff_ne]
  rintro rfl
  exact clean member

theorem Files.Askable.response_clean {files : Files} {name : Bytes}
    (askable : files.Askable name) : ¬ lineEnd <:+: files.response name := by
  rintro ⟨front, behind, cut⟩
  rw [Files.response, List.append_eq_append_iff] at cut
  rcases cut with ⟨gap, inName, -⟩ | ⟨gap, inName, inVerdict⟩
  · exact askable.clean ⟨front, gap, inName.symm⟩
  · have newline : 10 ∉ gap := fun member =>
      (files.verdict_plain name).2 (by rw [inVerdict]; exact List.mem_append_left _ member)
    rcases gap.eq_nil_or_concat with rfl | ⟨gap, c, rfl⟩
    · rw [List.append_nil] at inName
      exact askable.clean ⟨front, [], by rw [List.append_nil, inName]⟩
    · have last := congrArg List.getLast? inName
      simp [lineEnd] at last
      exact newline (by simp [← last])

theorem Files.Askable.untilNul_response {files : Files} {name : Bytes}
    (askable : files.Askable name) :
    untilNul (files.response name) = files.response name := by
  refine untilNul_of_clean fun member => ?_
  rcases List.mem_append.mp member with inName | inVerdict
  · exact askable.noNul inName
  · exact (files.verdict_plain name).1 inVerdict

theorem Files.Askable.length_response_lt {files : Files} {name : Bytes}
    (askable : files.Askable name) : (files.response name).length < 1000 := by
  have verdict := files.length_verdict_le name
  have fits := askable.fits
  rw [Files.response, List.length_append]
  omega

/-- A request is answered, and the client goes on with the response and the file
in front of it. -/
theorem Files.Askable.served {files : Files} {name : Bytes} (askable : files.Askable name)
    {next : Int → StreamProg UInt8 (ClientEnd × ClientLog)}
    {onLine : NvtLine → StreamProg UInt8 (ClientEnd × ClientLog)} {fuel : Nat}
    {requests : List Bytes}
    (goesOn : next (name ++ lineEnd).length = getNvtLine 1000 >>= onLine)
    (after : (talk (onLine (.line (files.response name)))
      (doConnection files fuel (requests ++ [name])) ((files.contents name).getD []) []).Settles
        Side.other result) :
    (talk (.write (name ++ lineEnd) next) (doConnection files (fuel + 1) requests) [] []).Settles
      Side.other result := by
  refine .write (i := .active) Side.other_involutive rfl ?_
  rw [talk_turn_active, goesOn, List.nil_append]
  have request := getNvtLine_reads 256 askable.clean (Nat.lt_succ_of_le askable.fits)
  rw [untilNul_of_clean askable.noNul] at request
  refine .reads (i := .passive) Side.other_involutive request rfl (List.append_nil _).symm ?_
  rw [talk_turn_passive, List.drop_length]
  dsimp only
  rw [if_neg askable.nonempty]
  refine .puts (i := .passive) Side.other_involutive (processLine_puts askable.whole) rfl ?_
  rw [talk_turn_passive]
  have response := getNvtLine_reads 1000 askable.response_clean askable.length_response_lt
  rw [askable.untilNul_response] at response
  refine .reads (i := .active) Side.other_involutive response rfl rfl ?_
  rw [talk_turn_active]
  simpa using after

/-- When the client has returned, the server finds the end of the stream. -/
theorem talk_hangUp (files : Files) (fuel : Nat) (requests : List Bytes)
    (outcome : ClientEnd × ClientLog) :
    (talk (.ret outcome) (doConnection files (fuel + 1) requests) [] []).Settles Side.other
      (Side.both outcome (.done, requests)) := by
  refine .eof (i := .passive) Side.other_involutive rfl Nat.one_pos rfl ⟨outcome, rfl⟩ ?_
  rw [talk_turn_passive]
  refine .now fun side => ?_
  cases side <;> rfl

end Exchange

/-! ## The whole session -/

/-- The names in an input. -/
def askedFor (stdin : Bytes) : List Bytes :=
  ((lines stdin).map fun line => (untilNul line).rdropWhile isspace).filter fun name =>
    decide (1 < name.length)

/-- The log of a client that has been told and sent all about `names`. -/
def Files.log (files : Files) (quiet : Bool) (names : List Bytes) : ClientLog where
  printed := names.map files.response
  rcvd := (names.filterMap files.contents).map fun contents => if quiet then [] else contents

/-- One log and then another. -/
def ClientLog.append (log more : ClientLog) : ClientLog where
  printed := log.printed ++ more.printed
  rcvd := log.rcvd ++ more.rcvd

/-- A line without its white space is a name that can be sent. -/
theorem askable_of_asked {files : Files} {stdin name : Bytes} (asked : name ∈ askedFor stdin)
    (fits : name.length ≤ 255) (whole : ∀ file, files.opened name = some file → file.Whole) :
    files.Askable name := by
  obtain ⟨member, long⟩ := List.mem_filter.mp asked
  obtain ⟨line, inFile, rfl⟩ := List.mem_map.mp member
  have front : (untilNul line).rdropWhile isspace <+: untilNul line :=
    List.rdropWhile_prefix _ _
  have start : untilNul line <+: line := List.takeWhile_prefix _
  have nonempty : (untilNul line).rdropWhile isspace ≠ [] := by
    intro none
    rw [none] at long
    simp at long
  refine ⟨nonempty, ?_, ?_, fits, whole⟩
  · intro inside
    have newline : 10 ∈ (untilNul line).rdropWhile isspace := inside.subset (by decide)
    have stops := List.rdropWhile_last_not isspace (untilNul line) nonempty
    have only := (newline_last inFile).2
    obtain ⟨rest, whole⟩ := front.trans start
    generalize (untilNul line).rdropWhile isspace = name at *
    -- the newline ends the line, so it was cut off as white space
    rcases rest.eq_nil_or_concat with rfl | ⟨rest, c, rfl⟩
    · rw [List.append_nil] at whole
      rw [← whole] at only
      rw [← List.dropLast_append_getLast nonempty, List.mem_append, List.mem_singleton] at newline
      rcases newline with early | last
      · exact only early
      · rw [← last] at stops
        exact stops rfl
    · rw [← whole, List.concat_eq_append, ← List.append_assoc, List.dropLast_concat] at only
      exact only (List.mem_append_left _ newline)
  · intro zero
    have stops := List.mem_takeWhile_imp (front.subset zero)
    simp at stops

theorem askedFor_cons {stdin line rest : Bytes} {more : List Bytes}
    (first : lines stdin = line :: more) (behind : lines rest = more) :
    askedFor stdin =
      if ((untilNul line).rdropWhile isspace).length ≤ 1 then askedFor rest
      else (untilNul line).rdropWhile isspace :: askedFor rest := by
  simp only [askedFor, first, behind, List.map_cons, List.filter_cons, decide_eq_true_eq]
  split <;> split <;> first | rfl | omega

theorem ClientLog.append_assoc (log more most : ClientLog) :
    (log.append more).append most = log.append (more.append most) := by
  simp [ClientLog.append, List.append_assoc]

theorem Files.log_cons (files : Files) (quiet : Bool) (name : Bytes) (names : List Bytes) :
    files.log quiet (name :: names) = (files.log quiet [name]).append (files.log quiet names) := by
  unfold Files.log ClientLog.append
  cases found : files.contents name <;> simp [found]

theorem ask_line {quiet : Bool} {stdin line : Bytes} (first : (fgets 999 stdin).1 = line)
    (some : line ≠ []) :
    ask ⟨none, quiet⟩ stdin =
      if ((untilNul line).rdropWhile isspace).length ≤ 1 then .again (fgets 999 stdin).2
      else if ((untilNul line).rdropWhile isspace).length + 3 ≤ 1000 then
        .send ((untilNul line).rdropWhile isspace) (fgets 999 stdin).2
      else .overrun := by
  simp only [ask, first, some, if_false]

/-- The client reads its input to the end, and asks for one name after the other. -/
theorem loop_settles {files : Files} {disk : Disk} (sound : disk.Sound) (quiet : Bool)
    {stdin : Bytes} {fuel fuel' : Nat} (short : ∀ line ∈ lines stdin, line.length ≤ 999)
    (askable : ∀ name ∈ askedFor stdin, files.Askable name)
    (enough : (lines stdin).length < fuel) (enough' : (askedFor stdin).length < fuel')
    (length : Int) (log : ClientLog) (requests : List Bytes) :
    (talk (loopUntilEnd disk ⟨none, quiet⟩ fuel length stdin log)
      (doConnection files fuel' requests) [] []).Settles Side.other
        (Side.both (.finished, log.append (files.log quiet (askedFor stdin)))
          (.done, requests ++ askedFor stdin)) := by
  generalize cut : lines stdin = pieces at short enough
  induction pieces generalizing stdin fuel fuel' length log requests with
  | nil =>
      obtain ⟨fuel, rfl⟩ := Nat.exists_eq_succ_of_ne_zero (Nat.ne_of_gt enough)
      obtain ⟨fuel', rfl⟩ :=
        Nat.exists_eq_succ_of_ne_zero (Nat.ne_of_gt (Nat.zero_lt_of_lt enough'))
      obtain rfl := lines_eq_nil.mp cut
      have none : askedFor [] = [] := rfl
      simpa [none, Files.log, ClientLog.append, loopUntilEnd, ask, fgets_nil] using
        talk_hangUp files fuel' requests (.finished, log)
  | cons line more ih =>
      obtain ⟨fuel, rfl⟩ :=
        Nat.exists_eq_succ_of_ne_zero (Nat.ne_of_gt (Nat.zero_lt_of_lt enough))
      have here : line ∈ lines stdin := cut ▸ List.mem_cons_self
      obtain ⟨first, behind⟩ := fgets_short cut (short line List.mem_cons_self)
      have names := askedFor_cons cut behind
      have later : ∀ line ∈ more, line.length ≤ 999 := fun line member =>
        short line (List.mem_cons_of_mem _ member)
      have enough : more.length < fuel := Nat.lt_of_succ_lt_succ enough
      rw [loopUntilEnd, ask_line first (newline_last here).1]
      rw [names] at askable enough' ⊢
      generalize (fgets 999 stdin).2 = rest at *
      generalize (untilNul line).rdropWhile isspace = name at *
      split
      · next tiny =>
          rw [if_pos tiny] at askable enough'
          exact ih askable enough' length log requests behind later enough
      · next long =>
          rw [if_neg long] at askable enough'
          obtain ⟨this, others⟩ := List.forall_mem_cons.mp askable
          obtain ⟨fuel', rfl⟩ :=
            Nat.exists_eq_succ_of_ne_zero (Nat.ne_of_gt (Nat.zero_lt_of_lt enough'))
          have enough' := Nat.lt_of_succ_lt_succ enough'
          have fits := this.fits
          rw [if_pos (by omega), files.log_cons, ← ClientLog.append_assoc, List.append_cons]
          refine this.served (if_neg (by omega)) ?_
          dsimp only
          rw [parseResponse_response files name length fun file found =>
            (this.whole file found).size_lt]
          cases found : files.opened name with
          | none =>
              have next := ih others enough' (-1)
                (log.append (files.log quiet [name])) (requests ++ [name]) behind later enough
              simpa [Files.log, ClientLog.append, Files.contents_eq found] using next
          | some file =>
              have next := ih others enough' 0
                (log.append (files.log quiet [name])) (requests ++ [name]) behind later enough
              have sent : (file.size.toNat : Int) ≠ -1 := by omega
              have opens : ¬ disk.opens log.rcvd.length = false := by simp [sound.opens]
              dsimp only
              rw [if_neg sent, if_neg opens, Files.contents_eq found]
              refine .reads (i := .active) Side.other_involutive
                ((this.whole file found).downloaded sound _ quiet) rfl
                (List.append_nil _).symm ?_
              rw [talk_turn_active]
              simpa [Files.log, ClientLog.append, Files.contents_eq found] using next

/-! ## Results -/

/-- Whatever the user types, as long as the lines and the names fit into the
arrays of the two programs, each file that opens is whole and the disk of the
client takes it: however the processes are scheduled and however `myread` cuts
what it returns, both programs end.  The client has asked for each name once and
in order, and stored each file that the server could open, whole; the server has
seen the same names. -/
theorem files_transferred (files : Files) {disk : Disk} (sound : disk.Sound) (quiet : Bool)
    {stdin : Bytes} {fuel fuel' : Nat} (short : ∀ line ∈ lines stdin, line.length ≤ 999)
    (fits : ∀ name ∈ askedFor stdin, name.length ≤ 255)
    (whole : ∀ name ∈ askedFor stdin, ∀ file, files.opened name = some file → file.Whole)
    (enough : (lines stdin).length < fuel) (enough' : (askedFor stdin).length < fuel')
    (length : Int) :
    (talk (loopUntilEnd disk ⟨none, quiet⟩ fuel length stdin {}) (doConnection files fuel' []) []
      []).Settles Side.other
        (Side.both (.finished, files.log quiet (askedFor stdin)) (.done, askedFor stdin)) := by
  have askable : ∀ name ∈ askedFor stdin, files.Askable name := fun name asked =>
    askable_of_asked asked (fits name asked) (whole name asked)
  have settles := loop_settles sound quiet short askable enough enough' length {} []
  simpa [ClientLog.append] using settles

/-- A server with one file of three bytes, under the name `ab`. -/
def oneFile : Files where
  readable line := line == [97, 98]
  finds line :=
    if line = [97, 98] then
      some { size := 3, pieces := [[1, 2], [3]], pieces_fit := by decide, fails := false }
    else none

/-- A disk with room. -/
def roomyDisk : Disk where
  opens _ := true
  stores _ _ piece := piece

theorem roomyDisk_sound : roomyDisk.Sound := ⟨fun _ => rfl, fun _ _ _ => rfl⟩

/-- Three lines: `ab `, `c` and `zz`. -/
def threeLines : Bytes := [97, 98, 32, 10, 99, 10, 122, 122, 10]

theorem oneFile_whole (name : Bytes) :
    ∀ file, oneFile.opened name = some file → file.Whole := by
  intro file found
  unfold Files.opened oneFile at found
  dsimp only at found
  split at found
  · cases found
  · split at found
    · cases found
      exact ⟨rfl, rfl, by decide⟩
    · cases found

/-- The name of one byte is never asked for, and there is no file `zz`. -/
theorem files_transferred_threeLines :
    (talk (loopUntilEnd roomyDisk ⟨none, false⟩ 4 0 threeLines {}) (doConnection oneFile 3 []) []
      []).Settles Side.other
        (Side.both (.finished, oneFile.log false [[97, 98], [122, 122]])
          (.done, [[97, 98], [122, 122]])) := by
  have asked : askedFor threeLines = [[97, 98], [122, 122]] := by decide
  have settles := @files_transferred oneFile roomyDisk roomyDisk_sound false threeLines 4 3
    (by decide) (by rw [asked]; decide) (fun name _ => oneFile_whole name) (by decide)
    (by rw [asked]; decide) 0
  rw [asked] at settles
  exact settles

/-- A name on the command line is not trimmed; the client ends after the one
exchange, and has failed if the server could not open the file. -/
theorem file_fetched (files : Files) {disk : Disk} (sound : disk.Sound) (quiet : Bool)
    {filename : Bytes} {fuel fuel' : Nat} (askable : files.Askable filename) (length : Int)
    (stdin : Bytes) :
    (talk (loopUntilEnd disk ⟨some filename, quiet⟩ (fuel + 1) length stdin {})
      (doConnection files (fuel' + 2) []) [] []).Settles Side.other
        (Side.both
          (if (files.opened filename).isSome then .finished else .failed,
            files.log quiet [filename])
          (.done, [filename])) := by
  have room : filename.length + 3 ≤ 1000 := by
    have fits := askable.fits
    omega
  rw [loopUntilEnd, ask]
  dsimp only
  rw [if_pos room]
  refine askable.served (if_neg (by omega)) ?_
  dsimp only
  rw [parseResponse_response files filename length fun file found =>
    (askable.whole file found).size_lt]
  cases found : files.opened filename with
  | none =>
      have hangUp := talk_hangUp files fuel' [filename] (.failed, files.log quiet [filename])
      simpa [Files.log, Files.contents_eq found] using hangUp
  | some file =>
      have hangUp := talk_hangUp files fuel' [filename] (.finished, files.log quiet [filename])
      have sent : (file.size.toNat : Int) ≠ -1 := by omega
      have opens : ¬ disk.opens 0 = false := by simp [sound.opens]
      dsimp only
      rw [if_neg sent, List.length_nil, if_neg opens, Files.contents_eq found]
      refine .reads (i := .active) Side.other_involutive
        ((askable.whole file found).downloaded sound _ quiet) rfl (List.append_nil _).symm ?_
      rw [talk_turn_active]
      simpa [Files.log, Files.contents_eq found] using hangUp

theorem file_fetched_ab :
    (talk (loopUntilEnd roomyDisk ⟨some [97, 98], false⟩ 1 0 [] {}) (doConnection oneFile 2 []) []
      []).Settles Side.other
        (Side.both (.finished, oneFile.log false [[97, 98]]) (.done, [[97, 98]])) :=
  file_fetched oneFile roomyDisk_sound false
    ⟨by decide, by decide, by decide, by decide, oneFile_whole [97, 98]⟩ 0 []

/-! ## Over STCP -/

/-- A line that fits into an array. -/
def NvtLine.Fits (size : Nat) : NvtLine → Prop
  | .line text => text.length ≤ size
  | _ => True

theorem untilNul_length_le (bytes : Bytes) : (untilNul bytes).length ≤ bytes.length :=
  (List.takeWhile_prefix _).length_le

theorem nvtStep_keeps {W : Bytes → Prop} {size : Nat} {lastChar : UInt8} {stored : Bytes}
    {atEnd : NvtLine} {store : UInt8 → StreamProg UInt8 NvtLine} (room : stored.length ≤ size)
    (last : atEnd.Fits size) (more : ∀ c, (store c).Keeps W (NvtLine.Fits size)) :
    (nvtStep lastChar stored atEnd store).Keeps W (NvtLine.Fits size) := by
  intro len got
  dsimp only
  split
  · exact trivial
  split
  · exact last
  split
  · have inside := untilNul_length_le stored.dropLast
    rw [List.length_dropLast] at inside
    change (untilNul stored.dropLast).length ≤ size
    omega
  · exact more _

/-- A line never outgrows its array: where the source would, the model stops. -/
theorem getNvtLine_keeps {W : Bytes → Prop} (size : Nat) :
    (getNvtLine size).Keeps W (NvtLine.Fits size) := by
  have loop : ∀ room lastChar (stored : Bytes), stored.length + room = size →
      (nvtLoop room lastChar stored).Keeps W (NvtLine.Fits size) := by
    intro room
    induction room with
    | zero =>
        intro lastChar stored full
        exact nvtStep_keeps (Nat.le_of_eq full) trivial fun _ => trivial
    | succ room ih =>
        intro lastChar stored full
        refine nvtStep_keeps (by omega) ?_ fun c => ih c _ ?_
        · exact Nat.le_trans (untilNul_length_le stored) (by omega)
        · rw [List.length_append, List.length_singleton]
          omega
  exact loop size 0 [] (Nat.zero_add size)

theorem sendContents_keeps (fails : Bool) {pieces : List Bytes}
    (fit : ∀ piece ∈ pieces, 0 < piece.length ∧ piece.length ≤ 5000) :
    (sendContents fails pieces).Keeps ShortWrite fun _ => True := by
  induction pieces with
  | nil => exact trivial
  | cons piece pieces ih =>
      obtain ⟨this, others⟩ := List.forall_mem_cons.mp fit
      refine ⟨Nat.lt_of_le_of_lt this.2 (by decide), fun rc => ?_⟩
      dsimp only
      split
      · exact trivial
      · exact ih others

theorem processLine_keeps {files : Files} {line : Bytes} (fits : line.length ≤ 256) :
    (processLine files line).Keeps ShortWrite fun _ => True := by
  refine ⟨?_, fun rc => ?_⟩
  · have verdict := files.length_verdict_le line
    have ending : lineEnd.length = 2 := rfl
    rw [ShortWrite, Files.response, List.length_append, List.length_append]
    omega
  · dsimp only
    split
    · exact trivial
    · split
      · exact trivial
      · next file _ => exact sendContents_keeps file.fails file.pieces_fit

theorem doConnection_keeps {files : Files}
    (fuel : Nat) (requests : List Bytes) :
    (doConnection files fuel requests).Keeps ShortWrite fun _ => True := by
  induction fuel generalizing requests with
  | zero => exact trivial
  | succ fuel ih =>
      refine (getNvtLine_keeps 256).bind fun read fits => ?_
      cases read with
      | failed => exact trivial
      | overrun => exact trivial
      | line line =>
          dsimp only
          split
          · exact trivial
          · refine (processLine_keeps fits).bind fun rc _ => ?_
            split
            · exact trivial
            · exact ih _

theorem download_keeps (stores : Int → Bytes → Bytes) (quiet : Bool) (fuel : Nat) (length : Int)
    (file : Bytes) : (download stores quiet fuel length file).Keeps ShortWrite fun _ => True := by
  induction fuel generalizing length file with
  | zero => exact trivial
  | succ fuel ih =>
      rw [download]
      split
      · exact trivial
      · intro got data
        dsimp only
        split
        · exact trivial
        split
        · exact trivial
        split
        · exact ih _ _
        split
        · exact trivial
        · exact ih _ _

theorem ask_fits {options : ClientOptions} {stdin name rest : Bytes}
    (asks : ask options stdin = .send name rest) : name.length + 3 ≤ 1000 := by
  unfold ask at asks
  split at asks
  · split at asks
    · next fits =>
        cases asks
        exact fits
    · cases asks
  · dsimp only at asks
    split at asks
    · cases asks
    split at asks
    · cases asks
    split at asks
    · next fits =>
        cases asks
        exact fits
    · cases asks

theorem loopUntilEnd_keeps (disk : Disk) (options : ClientOptions) (fuel : Nat) (length : Int)
    (stdin : Bytes) (log : ClientLog) :
    (loopUntilEnd disk options fuel length stdin log).Keeps ShortWrite fun _ => True := by
  induction fuel generalizing length stdin log with
  | zero => exact trivial
  | succ fuel ih =>
      rw [loopUntilEnd]
      cases asks : ask options stdin with
      | stop => exact trivial
      | overrun => exact trivial
      | again stdin => exact ih _ _ _
      | send name stdin =>
          refine ⟨?_, fun rc => ?_⟩
          · have fits := ask_fits asks
            have ending : lineEnd.length = 2 := rfl
            rw [ShortWrite, List.length_append]
            omega
          dsimp only
          split
          · exact trivial
          refine (getNvtLine_keeps 1000).bind fun read _ => ?_
          cases read with
          | failed => exact trivial
          | overrun => exact trivial
          | line line =>
              dsimp only
              split
              · exact trivial
              split
              · split
                · exact trivial
                · exact ih _ _ _
              split
              · exact trivial
              refine (download_keeps _ _ _ _ _).bind fun stored _ => ?_
              cases stored with
              | outOfFuel => exact trivial
              | overrun => exact trivial
              | stopped missing file =>
                  dsimp only
                  split
                  · exact trivial
                  split
                  · exact trivial
                  · exact ih _ _ _

/-- The client and the server over STCP: whatever the threads, the network and the
programs do when, both programs end as they do over pipes, and both transport
threads exit. -/
theorem files_transferred_stcp (files : Files) {disk : Disk} (sound : disk.Sound) (quiet : Bool)
    {stdin : Bytes} {fuel fuel' : Nat} (short : ∀ line ∈ lines stdin, line.length ≤ 999)
    (fits : ∀ name ∈ askedFor stdin, name.length ≤ 255)
    (whole : ∀ name ∈ askedFor stdin, ∀ file, files.opened name = some file → file.Whole)
    (enough : (lines stdin).length < fuel) (enough' : (askedFor stdin).length < fuel')
    (length : Int) (initialSequenceNum : Side → TcpSeq) :
    Inevitable Hosts.Step
      (Hosts.Finished
        (Side.both (.finished, files.log quiet (askedFor stdin)) (.done, askedFor stdin)))
      (Hosts.init initialSequenceNum
        (Side.both (β := fun side => StreamProg UInt8 (Returns side))
          (loopUntilEnd disk ⟨none, quiet⟩ fuel length stdin {})
          (doConnection files fuel' []))) := by
  have askable : ∀ name ∈ askedFor stdin, files.Askable name := fun name asked =>
    askable_of_asked asked (fits name asked) (whole name asked)
  have settles := loop_settles sound quiet short askable enough enough' length {} []
  rw [talk_silent] at settles
  refine programs_settle (fun side => ?_) (by simpa [ClientLog.append] using settles) _
  cases side
  · exact loopUntilEnd_keeps _ _ _ _ _ _
  · exact doConnection_keeps fuel' []

theorem files_transferred_stcp_threeLines :
    Inevitable Hosts.Step
      (Hosts.Finished
        (Side.both (.finished, oneFile.log false [[97, 98], [122, 122]])
          (.done, [[97, 98], [122, 122]])))
      (Hosts.init (fun _ => 0xffffffff)
        (Side.both (β := fun side => StreamProg UInt8 (Returns side))
          (loopUntilEnd roomyDisk ⟨none, false⟩ 4 0 threeLines {})
          (doConnection oneFile 3 []))) := by
  have asked : askedFor threeLines = [[97, 98], [122, 122]] := by decide
  have finishes := @files_transferred_stcp oneFile roomyDisk roomyDisk_sound false threeLines 4 3
    (by decide) (by rw [asked]; decide) (fun name _ => oneFile_whole name) (by decide)
    (by rw [asked]; decide) 0 fun _ => 0xffffffff
  rw [asked] at finishes
  exact finishes

end CompNet.Stcp
