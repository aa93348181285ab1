import CompNet.Lib.TextFile
import CompNet.Router.Sha1
import CompNet.Router.VnsMessages

/-!
# Authentication

The reply to the request for authentication: `sr_handle_auth_request` hashes the salt and
64 bytes of the array it has read the key to, and sends the name of the user and the
digest.  `srHandleAuthRequest_iff` says when a reply is sent, and what
`VNSAuthReply.unpack` on the side of the server makes of it.
-/

namespace CompNet.Router

open CompNet.Lib
open CompNet.Lib.Sha1 (digest)

/-! ## The client -/

/-- `VNS_AUTH_REPLY`. -/
def vnsAuthReply : Nat := 256

/-- What `sr_handle_auth_request` finds: `sr->user`, the file `auth_key` if it can be opened,
the array on the stack, the context, `malloc` and `send`. -/
structure AuthEnv where
  user : Bytes
  file : Option Bytes
  stack : Bytes
  stackSize : stack.length = 65
  context : SHA1Context
  malloc : Nat → Option Bytes
  mallocSize : ∀ n mem, malloc n = some mem → mem.length = n
  send : Bytes → Int

/-- The words, each stored most significant byte first. -/
def digestBytes (words : Words) : Bytes :=
  htonl words.a.toNat ++ htonl words.b.toNat ++ htonl words.c.toNat ++ htonl words.d.toNat ++
    htonl words.e.toNat

/-- The reply is built in what `malloc` returns and sent. -/
def sendAuthReply (env : AuthEnv) (words : Words) : Except Fault (Int × Option Bytes) := do
  let user ← stringAt env.user 0
  let len := 12 + user.length + 20
  match env.malloc len with
  | none => pure (0, none)
  | some reply => do
      let reply ← write reply 0 (htonl len)
      let reply ← write reply 4 (htonl vnsAuthReply)
      let reply ← write reply 8 (htonl user.length)
      let reply ← write reply 12 (user ++ [0])
      let reply ← write reply (12 + user.length) (digestBytes words)
      pure (if env.send reply = len then 1 else 0, some reply)

/-- `sr_handle_auth_request`, with what it has given to `send`. -/
def srHandleAuthRequest (env : AuthEnv) (buf : Bytes) : Except Fault (Int × Option Bytes) := do
  match env.file with
  | none => pure (0, none)
  | some file =>
      if file.isEmpty then pure (0, none)
      else do
        let authKey ← write env.stack 0 ((fgets 64 file).1 ++ [0])
        let mLen := ntohl (← read buf 0 4)
        let salt ← read buf 8 (((mLen : Int) - 8) % 2 ^ 64 % 2 ^ 32).toNat
        let context := sha1Input (authKey.take 64) (sha1Input salt (sha1Reset env.context))
        if (sha1Result context).1 = 0 then pure (0, none)
        else sendAuthReply env (sha1Result context).2.messageDigest

/-! ## The server -/

/-- `VNSAuthReply.unpack`; `struct.unpack` raises if there are not four bytes. -/
def unpackAuthReply (body : Bytes) : Option (Bytes × Bytes) :=
  if body.length < 4 then none
  else some ((body.drop 4).take (ntohl (body.take 4)), (body.drop 4).drop (ntohl (body.take 4)))

/-- A message in the layout of `c_base`: its length and its type in front.  The server leaves the
framing to `ltprotocol`, which is outside the sources; that it lays messages out like this, as the
client expects, is an assumption of all that follows. -/
def wire (type : Nat) (body : Bytes) : Bytes := htonl (8 + body.length) ++ htonl type ++ body

/-! ## The reply -/

/-- What stands where the key is expected: the first line of the file, a NUL behind it, and
what the array held before. -/
def keyBlock (env : AuthEnv) (file : Bytes) : Bytes :=
  (put env.stack 0 ((fgets 64 file).1 ++ [0])).take 64

/-- The next bytes of a buffer that is filled from the front. -/
theorem write_next {front tail v : Bytes} {i : Nat} (filled : front.length = i)
    (room : v.length ≤ tail.length) :
    write (front ++ tail) i v = .ok (front ++ v ++ tail.drop v.length) := by
  subst filled
  rw [write_ok (by rw [List.length_append]; omega), put, List.take_left,
    List.drop_length_add_append]

section

variable {env : AuthEnv} {buf reply : Bytes}

/-- The reply to a message of the server. -/
def authReply (user : Bytes) (words : Words) : Bytes :=
  wire vnsAuthReply (htonl user.length ++ user ++ digestBytes words)

/-- The writes fill the buffer. -/
theorem sendAuthReply_ok {user mem : Bytes} (words : Words) (name : cstring env.user = some user)
    (allocated : env.malloc (12 + user.length + 20) = some mem) :
    sendAuthReply env words =
      .ok (if env.send (authReply user words) = (authReply user words).length then 1 else 0,
        some (authReply user words)) := by
  have size : mem.length = 12 + user.length + 20 := env.mallocSize _ _ allocated
  have read : stringAt env.user 0 = .ok user := by rw [stringAt, List.drop_zero, name]
  have four (n : Nat) : (htonl n).length = 4 := rfl
  have twenty : (digestBytes words).length = 20 := rfl
  have length := @write_next [] mem (htonl (12 + user.length + 20)) 0 rfl (by rw [four]; omega)
  rw [List.nil_append, List.nil_append] at length
  have type := @write_next (htonl (12 + user.length + 20)) (mem.drop 4) (htonl vnsAuthReply) 4 rfl
    (by rw [four, List.length_drop]; omega)
  have count := @write_next (htonl (12 + user.length + 20) ++ htonl vnsAuthReply)
    ((mem.drop 4).drop 4) (htonl user.length) 8 rfl
    (by rw [four, List.length_drop, List.length_drop]; omega)
  have name := @write_next
    (htonl (12 + user.length + 20) ++ htonl vnsAuthReply ++ htonl user.length)
    (((mem.drop 4).drop 4).drop 4) (user ++ [0]) 12 rfl
    (by simp only [List.length_append, List.length_drop, List.length_singleton]; omega)
  generalize rest : (((mem.drop 4).drop 4).drop 4).drop (user ++ [0]).length = tail at name
  have left : tail.length = 19 := by
    rw [← rest]
    simp only [List.length_append, List.length_drop, List.length_singleton]
    omega
  -- the digest is written over the NUL of the name
  have covered : htonl (12 + user.length + 20) ++ htonl vnsAuthReply ++ htonl user.length ++
      (user ++ [0]) ++ tail =
      htonl (12 + user.length + 20) ++ htonl vnsAuthReply ++ htonl user.length ++ user ++
        (0 :: tail) := by
    simp only [List.append_assoc, List.singleton_append]
  have hash := @write_next
    (htonl (12 + user.length + 20) ++ htonl vnsAuthReply ++ htonl user.length ++ user)
    (0 :: tail) (digestBytes words) (12 + user.length)
    (by simp only [List.length_append, four]) (by rw [twenty, List.length_cons, left])
  have full : (0 :: tail).drop (digestBytes words).length = [] :=
    List.drop_eq_nil_of_le (by rw [twenty, List.length_cons, left])
  have whole : htonl (12 + user.length + 20) ++ htonl vnsAuthReply ++ htonl user.length ++ user ++
      digestBytes words = authReply user words := by
    have total : 8 + (htonl user.length ++ user ++ digestBytes words).length =
        12 + user.length + 20 := by
      simp only [List.length_append, four, twenty]
      omega
    rw [authReply, wire, total]
    simp only [List.append_assoc]
  have count' : (authReply user words).length = 12 + user.length + 20 := by
    rw [← whole]
    simp only [List.length_append, four, twenty]
  rw [full, List.append_nil, whole] at hash
  rw [sendAuthReply, read, ok_bind]
  dsimp only
  rw [allocated]
  dsimp only
  rw [length, ok_bind, four, type, ok_bind, four, count, ok_bind, four, name, ok_bind, covered,
    hash, ok_bind, count']
  rfl

/-- A salt and a key are hashed as one text. -/
theorem sha1Result_two (old : SHA1Context) {salt key : Bytes}
    (short : (salt ++ key).length < 2 ^ 61) :
    (sha1Result (sha1Input key (sha1Input salt (sha1Reset old)))).1 = 1 ∧
      (sha1Result (sha1Input key (sha1Input salt (sha1Reset old)))).2.messageDigest =
        digest (salt ++ key) := by
  have bytes : [Sha1Call.input salt, .input key].flatMap Sha1Call.bytes = salt ++ key := by
    simp [Sha1Call.bytes]
  have proper : Proper [.input salt, .input key] :=
    proper_of_not_asked (by simp) (by rw [bytes]; exact short)
  obtain ⟨succeeds, digested⟩ :=
    (outcome_run [.input salt, .input key] (outcome_reset old)).sha1Result
  rw [List.nil_append] at succeeds digested
  rw [bytes] at digested
  exact ⟨succeeds.mpr proper, digested proper⟩

theorem length_keyBlock (file : Bytes) : (keyBlock env file).length = 64 := by
  have read := length_fgets_stored 64 file
  have room : 0 + ((fgets 64 file).1 ++ [0]).length ≤ env.stack.length := by
    rw [env.stackSize, List.length_append, List.length_singleton]
    omega
  rw [keyBlock, List.length_take, length_put room, env.stackSize]
  rfl

/-- A file that begins with 64 bytes of one line gives these. -/
theorem keyBlock_whole {file : Bytes} (long : 64 ≤ file.length) (line : 10 ∉ file.take 64) :
    keyBlock env file = file.take 64 := by
  have size : (file.take 64).length = 64 := by
    rw [List.length_take]
    omega
  rw [keyBlock, fgets_filled line, put, List.take_zero, List.nil_append, List.append_assoc,
    List.take_left' size]

theorem htonl_ntohl {b : Bytes} (four : b.length = 4) : htonl (ntohl b) = b := by
  obtain ⟨b0, b1, b2, b3, rfl⟩ := List.length_eq_four.mp four
  have bound0 := b0.toNat_lt
  have bound1 := b1.toNat_lt
  have bound2 := b2.toNat_lt
  have bound3 := b3.toNat_lt
  simp only [htonl, ntohl, List.foldl_cons, List.foldl_nil, List.cons.injEq, ← UInt8.toNat_inj,
    UInt8.toNat_ofNat']
  refine ⟨?_, ?_, ?_, ?_, trivial⟩ <;> omega

theorem unpackAuthReply_authReply {user : Bytes} (words : Words) (short : user.length < 2 ^ 32) :
    unpackAuthReply ((authReply user words).drop 8) = some (user, digestBytes words) := by
  have body : (authReply user words).drop 8 = htonl user.length ++ (user ++ digestBytes words) := by
    rw [authReply, List.append_assoc]
    rfl
  have four : (htonl user.length).length = 4 := rfl
  have enough : ¬ (htonl user.length ++ (user ++ digestBytes words)).length < 4 := by
    rw [List.length_append]
    omega
  rw [unpackAuthReply, body, if_neg enough, List.take_left' four, List.drop_left' four,
    ntohl_htonl short, List.take_left, List.drop_left]

/-- What is unpacked was packed. -/
theorem eq_of_unpackAuthReply {body user ssp : Bytes}
    (unpacked : unpackAuthReply body = some (user, ssp)) (some : ssp ≠ []) :
    body = htonl user.length ++ user ++ ssp := by
  rw [unpackAuthReply] at unpacked
  split at unpacked
  · cases unpacked
  · next enough =>
      have four : (body.take 4).length = 4 := by
        rw [List.length_take]
        omega
      rw [Option.some.injEq, Prod.mk.injEq] at unpacked
      obtain ⟨rfl, rfl⟩ := unpacked
      have inside : ntohl (body.take 4) < (body.drop 4).length := by
        by_contra outside
        exact some (List.drop_eq_nil_of_le (Nat.le_of_not_lt outside))
      rw [List.length_take_of_le inside.le, htonl_ntohl four, List.append_assoc,
        List.take_append_drop, List.take_append_drop]

/-- The digest is that of the salt and of the block with the key. -/
theorem srHandleAuthRequest_eq {file : Bytes} (small : buf.length ≤ 10000)
    (stored : field buf 0 4 = htonl buf.length) (long : 8 ≤ buf.length)
    (opened : env.file = some file) (nonempty : file ≠ []) :
    srHandleAuthRequest env buf = sendAuthReply env (digest (buf.drop 8 ++ keyBlock env file)) := by
  have line := length_fgets_stored 64 file
  have key : write env.stack 0 ((fgets 64 file).1 ++ [0]) =
      .ok (put env.stack 0 ((fgets 64 file).1 ++ [0])) := by
    apply write_ok
    rw [env.stackSize, List.length_append, List.length_singleton]
    omega
  have count : (((buf.length : Int) - 8) % 2 ^ 64 % 2 ^ 32).toNat = buf.length - 8 := by omega
  have salt : field buf 8 (buf.length - 8) = buf.drop 8 :=
    List.take_of_length_le (by rw [List.length_drop])
  obtain ⟨succeeds, digested⟩ := @sha1Result_two env.context (buf.drop 8) (keyBlock env file) (by
    rw [List.length_append, length_keyBlock, List.length_drop]
    omega)
  rw [srHandleAuthRequest, opened]
  dsimp only
  rw [if_neg (by simpa using nonempty), key, ok_bind, mLen_eq stored long, ok_bind,
    ntohl_htonl (by omega), count, read_ok (by omega), ok_bind, salt, ← keyBlock, succeeds,
    if_neg (by decide), digested]

/-- The client answers a message that has reached it if and only if there is a key, memory for
the reply, and a `send` that takes all of it; `VNSAuthReply.unpack` then has the name of the
user and the digest of the salt and the key. -/
theorem srHandleAuthRequest_iff {user : Bytes} (small : buf.length ≤ 10000)
    (stored : field buf 0 4 = htonl buf.length) (long : 8 ≤ buf.length)
    (name : cstring env.user = some user) (short : user.length < 2 ^ 32) :
    srHandleAuthRequest env buf = .ok (1, some reply) ↔
      ∃ file, env.file = some file ∧ file ≠ [] ∧ env.malloc (12 + user.length + 20) ≠ none ∧
        env.send reply = reply.length ∧ reply = wire vnsAuthReply (reply.drop 8) ∧
        unpackAuthReply (reply.drop 8) =
          some (user, digestBytes (digest (buf.drop 8 ++ keyBlock env file))) := by
  constructor
  · intro answered
    cases opened : env.file with
    | none =>
        rw [srHandleAuthRequest, opened] at answered
        cases answered
    | some file =>
        by_cases nonempty : file = []
        · rw [srHandleAuthRequest, opened] at answered
          subst nonempty
          cases answered
        · rw [srHandleAuthRequest_eq small stored long opened nonempty] at answered
          cases allocated : env.malloc (12 + user.length + 20) with
          | none =>
              rw [sendAuthReply, stringAt, List.drop_zero, name] at answered
              simp only [ok_bind, allocated] at answered
              cases answered
          | some mem =>
              rw [sendAuthReply_ok _ name allocated, Except.ok.injEq, Prod.mk.injEq,
                Option.some.injEq] at answered
              obtain ⟨sent, rfl⟩ := answered
              refine ⟨file, rfl, nonempty, Option.some_ne_none mem, ?_, rfl,
                unpackAuthReply_authReply _ short⟩
              by_contra partly
              rw [if_neg partly] at sent
              cases sent
  · rintro ⟨file, opened, nonempty, memory, sent, framed, unpacked⟩
    obtain ⟨mem, allocated⟩ := Option.ne_none_iff_exists'.mp memory
    have body := eq_of_unpackAuthReply unpacked (List.cons_ne_nil _ _)
    have built : reply = authReply user (digest (buf.drop 8 ++ keyBlock env file)) := by
      rw [framed, body, authReply]
    rw [srHandleAuthRequest_eq small stored long opened nonempty, sendAuthReply_ok _ name allocated,
      ← built, if_pos sent]

end

/-- A client with a key of one letter, 64 times. -/
def keyedEnv : AuthEnv where
  user := 117 :: List.replicate 31 0
  file := some (List.replicate 64 107)
  stack := List.replicate 65 0
  stackSize := rfl
  context := ⟨Sha1.initial, 0, 0, List.replicate 64 0, rfl, 0, false, false⟩
  malloc n := some (List.replicate n 0)
  mallocSize n mem allocated := by
    rw [← Option.some.inj allocated, List.length_replicate]
  send bytes := bytes.length

/-- The message of a salt of 20 bytes. -/
def saltRequest : Bytes := wire vnsAuthRequest (List.replicate 20 7)

theorem srHandleAuthRequest_iff_keyed :
    srHandleAuthRequest keyedEnv saltRequest =
      .ok (1, some (authReply [117] (digest (List.replicate 20 7 ++ List.replicate 64 107)))) := by
  have key : keyBlock keyedEnv (List.replicate 64 107) = List.replicate 64 107 :=
    keyBlock_whole (by decide) (by decide)
  refine (srHandleAuthRequest_iff (by decide) (by decide) (by decide) rfl (by decide)).mpr
    ⟨_, rfl, by decide, Option.some_ne_none _, rfl, rfl, ?_⟩
  rw [key]
  exact unpackAuthReply_authReply _ (by decide)

end CompNet.Router
