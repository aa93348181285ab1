import CompNet.Lib.Command
import CompNet.Lib.TextFile
import CompNet.Router.Cache

/-!
# Loading the routing table

`sr_load_rt` reads a file line by line into four buffers that live as long as the
loop does, and enters a route for each line it reads.  What `sscanf` returns is
ignored: where a line has fewer than four fields the other buffers still hold those
of the lines before it.  `ownRoutes_iff` says for which files each route comes from
a line of its own.
-/

namespace CompNet.Router

open CompNet.Lib

/-! ## Buffers -/

/-- A `char` array of 32 bytes. -/
structure Buffer where
  bytes : Bytes
  size : bytes.length = 32

/-- A string stored with its NUL. -/
def Buffer.store (b : Buffer) (str : Bytes) (fits : str.length < 32) : Buffer where
  bytes := str ++ 0 :: b.bytes.drop (str.length + 1)
  size := by
    simp only [List.length_append, List.length_cons, List.length_drop, b.size]
    omega

/-- `%s` does not know how long the buffer is. -/
def Buffer.write (b : Buffer) (str : Bytes) : Except Fault Buffer :=
  if fits : str.length < 32 then .ok (b.store str fits) else .error .outOfBounds

/-- The string in a buffer; what an uninitialised one holds may have no end inside it. -/
def Buffer.string (b : Buffer) : Except Fault Bytes :=
  match cstring b.bytes with
  | none => .error .outOfBounds
  | some str => .ok str

/-- The bytes that `strncpy` copies out of a buffer. -/
def Buffer.copied (b : Buffer) : Bytes := (b.bytes.takeWhile (· != 0)).take 32

/-- What was written is read back. -/
theorem Buffer.write_ok {b b' : Buffer} {str : Bytes} (clean : 0 ∉ str)
    (written : b.write str = .ok b') : b'.string = .ok str ∧ b'.copied = str := by
  unfold Buffer.write at written
  split at written
  · next fits =>
      cases written
      have read : cstring (b.store str fits).bytes = some str := cstring_append clean
      have bytes : (b.store str fits).bytes.takeWhile (· != 0) = str := by
        unfold cstring at read
        split at read
        · exact Option.some.inj read
        · cases read
      rw [Buffer.string, read, Buffer.copied, bytes, List.take_of_length_le (Nat.le_of_lt fits)]
      exact ⟨rfl, rfl⟩
  · cases written

/-! ## The function -/

/-- The arrays `dest`, `gw`, `mask` and `iface` of `sr_load_rt`. -/
structure Scanned where
  dest : Buffer
  gw : Buffer
  mask : Buffer
  iface : Buffer

/-- `sscanf(line, "%s %s %s %s", dest, gw, mask, iface)`: it stops where the string has
no further word, and leaves the buffers from there on as they are. -/
def sscanf (b : Scanned) (line : Bytes) : Except Fault Scanned :=
  match scanWord line with
  | none => .ok b
  | some (word, line) => do
      let dest ← b.dest.write word
      match scanWord line with
      | none => .ok { b with dest }
      | some (word, line) =>
          let gw ← b.gw.write word
          match scanWord line with
          | none => .ok { b with dest, gw }
          | some (word, line) =>
              let mask ← b.mask.write word
              match scanWord line with
              | none => .ok { b with dest, gw, mask }
              | some (word, _) =>
                  let iface ← b.iface.write word
                  .ok { dest, gw, mask, iface }

/-- `sr_add_rt_entry`: the entry goes to the end of the list. -/
def srAddRtEntry (route : Route) : List Route → List Route
  | [] => [route]
  | walker :: next => walker :: srAddRtEntry route next

/-- The three calls of `inet_aton` and the name that `strncpy` copies, `none` where a
call fails. -/
def convert (inetAton : Bytes → Option Ip) (b : Scanned) : Except Fault (Option Route) := do
  match inetAton (← b.dest.string) with
  | none => .ok none
  | some dest =>
      match inetAton (← b.gw.string) with
      | none => .ok none
      | some gw =>
          match inetAton (← b.mask.string) with
          | none => .ok none
          | some mask => .ok (some ⟨dest, gw, mask, b.iface.copied⟩)

def bufsiz : Nat := 8192

/-- The loop of `sr_load_rt`, with `clear_routing_table`.  A line that `fgets` returns is
a string, so that a NUL in it ends it for `sscanf`. -/
def loadLoop (inetAton : Bytes → Option Ip) :
    Nat → Bytes → Scanned → Bool → List Route → Except Fault (Int × List Route)
  | 0, _, _, _, _ => .error .outOfFuel
  | fuel + 1, file, b, cleared, table =>
      if file.isEmpty then .ok (0, table)
      else do
        let (line, file) := fgets (bufsiz - 1) file
        let b ← sscanf b (line.takeWhile (· != 0))
        match ← convert inetAton b with
        | none => .ok (-1, table)
        | some route =>
            let table := if cleared then table else []
            loadLoop inetAton fuel file b true (srAddRtEntry route table)

/-- `sr_load_rt` for the contents of a file, if it can be read. -/
def srLoadRt (inetAton : Bytes → Option Ip) (b : Scanned) (fuel : Nat) (sr : Instance)
    (file : Option Bytes) : Except Fault (Int × Instance) :=
  match file with
  | none => .ok (-1, sr)
  | some file => do
      let (ret, table) ← loadLoop inetAton fuel file b false sr.routingTable
      .ok (ret, { sr with routingTable := table })

/-! ## Lines and routes -/

/-- The fields of a line. -/
def lineFields (line : Bytes) : List Bytes := textWords (line.takeWhile (· != 0))

/-- A route made of the first four fields of a line and of nothing else. -/
def BuiltFrom (inetAton : Bytes → Option Ip) (line : Bytes) (route : Route) : Prop :=
  ∃ dest gw mask iface more, lineFields line = dest :: gw :: mask :: iface :: more ∧
    inetAton dest = some route.dest ∧ inetAton gw = some route.gw ∧
    inetAton mask = some route.mask ∧ iface = route.interface

/-- One route for each line that has four fields, in the order of the lines. -/
def OwnRoutes (inetAton : Bytes → Option Ip) (file : Bytes) (table : List Route) : Prop :=
  List.Forall₂ (BuiltFrom inetAton)
    ((lines file).filter fun line => 4 ≤ (lineFields line).length) table

/-- Every line fits into `line` and has four fields, and there is one where the table has
to be cleared. -/
def OwnLines (sr : Instance) (file : Bytes) : Prop :=
  (∀ line ∈ lines file, line.length < bufsiz ∧ 4 ≤ (lineFields line).length) ∧
    (file = [] → sr.routingTable = [])

theorem srAddRtEntry_eq (route : Route) (table : List Route) :
    srAddRtEntry route table = table ++ [route] := by
  induction table with
  | nil => rfl
  | cons walker next ih => rw [srAddRtEntry, ih, List.cons_append]

/-- A line with four words fills the four buffers. -/
theorem sscanf_four {b b' : Scanned} {line dest gw mask iface : Bytes} {more : List Bytes}
    (clean : 0 ∉ line) (scan : sscanf b line = .ok b')
    (four : textWords line = dest :: gw :: mask :: iface :: more) :
    b'.dest.string = .ok dest ∧ b'.gw.string = .ok gw ∧ b'.mask.string = .ok mask ∧
      b'.iface.copied = iface := by
  obtain ⟨behindDest, scanDest, four, inLine⟩ := scanWord_of_words four
  obtain ⟨behindGw, scanGw, four, inDest⟩ := scanWord_of_words four
  obtain ⟨behindMask, scanMask, four, inGw⟩ := scanWord_of_words four
  obtain ⟨behindIface, scanIface, -, inMask⟩ := scanWord_of_words four
  simp only [sscanf, scanDest, scanGw, scanMask, scanIface] at scan
  obtain ⟨destBuf, destOk, scan⟩ := ok_of_bind scan
  obtain ⟨gwBuf, gwOk, scan⟩ := ok_of_bind scan
  obtain ⟨maskBuf, maskOk, scan⟩ := ok_of_bind scan
  obtain ⟨ifaceBuf, ifaceOk, scan⟩ := ok_of_bind scan
  cases scan
  have cleanDest : 0 ∉ dest ++ behindDest := fun zero => clean (inLine 0 zero)
  have cleanGw : 0 ∉ gw ++ behindGw :=
    fun zero => cleanDest (List.mem_append_right _ (inDest 0 zero))
  have cleanMask : 0 ∉ mask ++ behindMask :=
    fun zero => cleanGw (List.mem_append_right _ (inGw 0 zero))
  have cleanIface : 0 ∉ iface ++ behindIface :=
    fun zero => cleanMask (List.mem_append_right _ (inMask 0 zero))
  have left {s t : Bytes} (both : 0 ∉ s ++ t) : 0 ∉ s :=
    fun zero => both (List.mem_append_left t zero)
  exact ⟨(Buffer.write_ok (left cleanDest) destOk).1, (Buffer.write_ok (left cleanGw) gwOk).1,
    (Buffer.write_ok (left cleanMask) maskOk).1, (Buffer.write_ok (left cleanIface) ifaceOk).2⟩

/-- Four buffers that `inet_aton` accepts. -/
theorem convert_ok {inetAton : Bytes → Option Ip} {b : Scanned} {route : Route}
    (converted : convert inetAton b = .ok (some route)) :
    (∃ dest, b.dest.string = .ok dest ∧ inetAton dest = some route.dest) ∧
      (∃ gw, b.gw.string = .ok gw ∧ inetAton gw = some route.gw) ∧
      (∃ mask, b.mask.string = .ok mask ∧ inetAton mask = some route.mask) ∧
      route.interface = b.iface.copied := by
  obtain ⟨dest, readDest, converted⟩ := ok_of_bind converted
  split at converted
  · cases converted
  · next destIp destOk =>
      obtain ⟨gw, readGw, converted⟩ := ok_of_bind converted
      split at converted
      · cases converted
      · next gwIp gwOk =>
          obtain ⟨mask, readMask, converted⟩ := ok_of_bind converted
          split at converted
          · cases converted
          · next maskIp maskOk =>
              cases converted
              exact ⟨⟨dest, readDest, destOk⟩, ⟨gw, readGw, gwOk⟩, ⟨mask, readMask, maskOk⟩, rfl⟩

section

variable {inetAton : Bytes → Option Ip} {fuel : Nat} {file : Bytes} {b : Scanned}
  {cleared : Bool} {table table' : List Route}

/-- What is entered for a line, which is a route of its own if it has four fields. -/
def Entered (inetAton : Bytes → Option Ip) (line : Bytes) (route : Route) : Prop :=
  4 ≤ (lineFields line).length → BuiltFrom inetAton line route

theorem entered {b' : Scanned} {line : Bytes} {route : Route}
    (scan : sscanf b (line.takeWhile (· != 0)) = .ok b')
    (converted : convert inetAton b' = .ok (some route)) : Entered inetAton line route := by
  intro four
  match fields : lineFields line, four with
  | dest :: gw :: mask :: iface :: more, _ =>
      have clean : 0 ∉ line.takeWhile (· != 0) := fun zero => by
        simpa using List.mem_takeWhile_imp zero
      obtain ⟨destIs, gwIs, maskIs, ifaceIs⟩ := sscanf_four clean scan fields
      obtain ⟨⟨dest', readDest, destOk⟩, ⟨gw', readGw, gwOk⟩, ⟨mask', readMask, maskOk⟩,
        name⟩ := convert_ok converted
      rw [destIs] at readDest
      rw [gwIs] at readGw
      rw [maskIs] at readMask
      cases readDest
      cases readGw
      cases readMask
      exact ⟨dest, gw, mask, iface, more, fields, destOk, gwOk, maskOk, by rw [name, ifaceIs]⟩

/-- A round of the loop that does not end it. -/
theorem loadLoop_next (some : file ≠ [])
    (run : loadLoop inetAton (fuel + 1) file b cleared table = .ok (0, table')) :
    ∃ b' route, Entered inetAton (fgets (bufsiz - 1) file).1 route ∧
      loadLoop inetAton fuel (fgets (bufsiz - 1) file).2 b' true
        ((if cleared then table else []) ++ [route]) = .ok (0, table') := by
  rw [loadLoop, if_neg (by simpa using some)] at run
  obtain ⟨b', scan, run⟩ := ok_of_bind run
  obtain ⟨result, converted, run⟩ := ok_of_bind run
  cases result with
  | none => cases run
  | some route =>
      refine ⟨b', route, entered scan converted, ?_⟩
      rw [← srAddRtEntry_eq]
      exact run

/-- A whole run enters a route for each piece that `fgets` returns. -/
theorem loadLoop_ok (run : loadLoop inetAton fuel file b cleared table = .ok (0, table')) :
    ∃ pieces routes, Reads (bufsiz - 1) file pieces ∧
      List.Forall₂ (Entered inetAton) pieces routes ∧
      table' = (if cleared ∨ file = [] then table else []) ++ routes := by
  induction fuel generalizing file b cleared table with
  | zero => cases run
  | succ fuel ih =>
      by_cases none : file = []
      · subst none
        cases run
        exact ⟨[], [], .done, .nil, by simp⟩
      · obtain ⟨b', route, own, run⟩ := loadLoop_next none run
        obtain ⟨pieces, routes, reads, each, rfl⟩ := ih run
        refine ⟨_, route :: routes, .next none reads, .cons own each, ?_⟩
        cases cleared <;> simp [none]

end

/-! ## Termination -/

theorem Buffer.write_ends (b : Buffer) (str : Bytes) : b.write str ≠ .error .outOfFuel := by
  unfold Buffer.write
  split <;> simp

theorem Buffer.string_ends (b : Buffer) : b.string ≠ .error .outOfFuel := by
  unfold Buffer.string
  split <;> simp

theorem sscanf_ends (b : Scanned) (line : Bytes) : sscanf b line ≠ .error .outOfFuel := by
  unfold sscanf
  split
  · simp
  · refine bind_ne_error (b.dest.write_ends _) fun dest _ => ?_
    split
    · simp
    · refine bind_ne_error (b.gw.write_ends _) fun gw _ => ?_
      split
      · simp
      · refine bind_ne_error (b.mask.write_ends _) fun mask _ => ?_
        split
        · simp
        · exact bind_ne_error (b.iface.write_ends _) fun iface _ => by simp

theorem convert_ends (inetAton : Bytes → Option Ip) (b : Scanned) :
    convert inetAton b ≠ .error .outOfFuel := by
  refine bind_ne_error b.dest.string_ends fun dest _ => ?_
  split
  · simp
  · refine bind_ne_error b.gw.string_ends fun gw _ => ?_
    split
    · simp
    · refine bind_ne_error b.mask.string_ends fun mask _ => ?_
      split <;> simp

theorem loadLoop_ends {inetAton : Bytes → Option Ip} {fuel : Nat} {file : Bytes} {b : Scanned}
    {cleared : Bool} {table : List Route} (enough : file.length < fuel) :
    loadLoop inetAton fuel file b cleared table ≠ .error .outOfFuel := by
  induction fuel generalizing file b cleared table with
  | zero => exact absurd enough (Nat.not_lt_zero _)
  | succ fuel ih =>
      rw [loadLoop]
      split
      · simp
      · next some =>
          refine bind_ne_error (sscanf_ends _ _) fun b' _ => bind_ne_error (convert_ends _ _) ?_
          intro result _
          split
          · simp
          · have less := length_fgets_lt 8190 (by simpa using some)
            exact ih (Nat.lt_of_lt_of_le less (Nat.le_of_lt_succ enough))

/-- `sr_load_rt` ends for every file: a call of `fgets` leaves less of it. -/
theorem srLoadRt_ends (inetAton : Bytes → Option Ip) (b : Scanned) {fuel : Nat} (sr : Instance)
    {file : Bytes} (enough : file.length < fuel) :
    srLoadRt inetAton b fuel sr (some file) ≠ .error .outOfFuel :=
  bind_ne_error (loadLoop_ends enough) fun _ _ => by simp

/-! ## Routes of their own -/

/-- If `sr_load_rt` returns 0, the table has one route for each line with four fields, made of
that line alone, if and only if the file has no other lines and none that `fgets` cuts. -/
theorem ownRoutes_iff (inetAton : Bytes → Option Ip) (b : Scanned) (fuel : Nat)
    (sr sr' : Instance) (file : Bytes)
    (loaded : srLoadRt inetAton b fuel sr (some file) = .ok (0, sr')) :
    OwnRoutes inetAton file sr'.routingTable ↔ OwnLines sr file := by
  obtain ⟨⟨ret, table⟩, run, same⟩ := ok_of_bind loaded
  cases same
  obtain ⟨pieces, routes, reads, each, rfl⟩ := loadLoop_ok run
  by_cases none : file = []
  · subst none
    cases reads with
    | done =>
        cases each
        simp [OwnRoutes, OwnLines, lines]
    | next some _ => exact absurd rfl some
  · simp only [none, Bool.false_eq_true, or_self, if_false, List.nil_append]
    obtain ⟨fewer, uncut⟩ := reads.length_lines_le
    constructor
    · intro own
      -- a piece for each line at least and a route for each piece: none is left over
      have routesLength := own.length_eq
      have piecesLength := each.length_eq
      have filtered :=
        List.length_filter_le (fun line => 4 ≤ (lineFields line).length) (lines file)
      have all := List.length_filter_eq_length_iff.mp (Nat.le_antisymm filtered (by omega))
      have short := uncut (by omega)
      refine ⟨fun line member => ⟨?_, ?_⟩, fun empty => absurd empty none⟩
      · exact Nat.lt_of_le_pred (by decide) (short line member)
      · simpa using all line member
    · rintro ⟨whole, -⟩
      have same := reads.eq_lines fun line member => Nat.le_pred_of_lt (whole line member).1
      have four : ∀ line ∈ pieces, 4 ≤ (lineFields line).length :=
        fun line member => (whole line (same ▸ member)).2
      have all : (lines file).filter (fun line => 4 ≤ (lineFields line).length) = pieces := by
        rw [← same, List.filter_eq_self]
        simpa using four
      rw [OwnRoutes, all]
      exact ((List.forall₂_and_left _ _).mpr ⟨four, each⟩).imp fun _ _ both => both.2 both.1

/-- 192.168.2.2 -/
def firstHost : Bytes := [49, 57, 50, 46, 49, 54, 56, 46, 50, 46, 50]

/-- 172.64.3.10 -/
def secondHost : Bytes := [49, 55, 50, 46, 54, 52, 46, 51, 46, 49, 48]

/-- 10.0.1.100 -/
def thirdHost : Bytes := [49, 48, 46, 48, 46, 49, 46, 49, 48, 48]

/-- 255.255.255.255 -/
def hostMask : Bytes := [50, 53, 53, 46, 50, 53, 53, 46, 50, 53, 53, 46, 50, 53, 53]

/-- `inet_aton` on the addresses above. -/
def hostAton (s : Bytes) : Option Ip :=
  if s = firstHost then some 0x0202a8c0
  else if s = secondHost then some 0x0a0340ac
  else if s = thirdHost then some 0x6401000a
  else if s = hostMask then some 0xffffffff
  else none

def padTo (width : Nat) (text : Bytes) : Bytes := text ++ List.replicate (width - text.length) 32

/-- A line of the file `rtable`. -/
def rtableLine (host : Bytes) (digit : UInt8) : Bytes :=
  padTo 14 host ++ padTo 15 host ++ padTo 19 hostMask ++ [101, 116, 104, digit, 10]

/-- The three routes of the file `rtable`, without the two blank lines behind them. -/
def rtableText : Bytes :=
  rtableLine firstHost 49 ++ rtableLine secondHost 50 ++ rtableLine thirdHost 51

/-- Buffers that are not initialised. -/
def strayBuffers : Scanned :=
  let stray : Buffer := ⟨List.replicate 32 204, List.length_replicate⟩
  ⟨stray, stray, stray, stray⟩

def hostRoute (ip : Ip) (digit : UInt8) : Route := ⟨ip, ip, 0xffffffff, [101, 116, 104, digit]⟩

def rtableRoutes : List Route :=
  [hostRoute 0x0202a8c0 49, hostRoute 0x0a0340ac 50, hostRoute 0x6401000a 51]

theorem ownRoutes_iff_rtableText :
    OwnRoutes hostAton rtableText rtableRoutes ↔ OwnLines oneInterface rtableText :=
  ownRoutes_iff hostAton strayBuffers 200 oneInterface
    { oneInterface with routingTable := rtableRoutes } rtableText rfl

/-- With its two blank lines, the file `rtable` enters the last route three times; and a line
that ends after its first field gets the others from the line before it. -/
theorem blankLines_repeat_route :
    srLoadRt hostAton strayBuffers 200 oneInterface (some (rtableText ++ [10, 10])) =
        .ok (0, { oneInterface with routingTable :=
          rtableRoutes ++ [hostRoute 0x6401000a 51, hostRoute 0x6401000a 51] }) ∧
      srLoadRt hostAton strayBuffers 200 oneInterface
          (some (rtableLine firstHost 49 ++ secondHost ++ [10])) =
        .ok (0, { oneInterface with routingTable :=
          [hostRoute 0x0202a8c0 49, ⟨0x0a0340ac, 0x0202a8c0, 0xffffffff, [101, 116, 104, 49]⟩] }) ∧
      ¬ ∀ (inetAton : Bytes → Option Ip) (b : Scanned) (fuel : Nat) (sr sr' : Instance)
        (file : Bytes), (∀ line ∈ lines file, ∀ word ∈ lineFields line, word.length < 32) →
          srLoadRt inetAton b fuel sr (some file) = .ok (0, sr') →
            OwnRoutes inetAton file sr'.routingTable := by
  have loaded : srLoadRt hostAton strayBuffers 200 oneInterface (some (rtableText ++ [10, 10])) =
      .ok (0, { oneInterface with routingTable :=
        rtableRoutes ++ [hostRoute 0x6401000a 51, hostRoute 0x6401000a 51] }) := rfl
  refine ⟨loaded, rfl, fun all => ?_⟩
  have own := all _ _ _ _ _ (rtableText ++ [10, 10]) (by decide) loaded
  exact absurd own.length_eq (by decide)

end CompNet.Router
