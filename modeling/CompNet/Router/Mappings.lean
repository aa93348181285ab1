import CompNet.Lib.Command
import CompNet.Router.Cache

/-!
# The ARP cache as a map

What the cache is for is a map from addresses to Ethernet addresses that an insertion
updates at one place.  `sr_arpcache_insert` takes the first slot that is free and does not
look for an older entry, while `sr_arpcache_lookup` keeps the last entry that fits.  The
new mapping is therefore found unless an older one for the address lies behind the slot it
was put into, and in a full table it is not entered at all.
-/

namespace CompNet.Router

open CompNet.Lib

/-! ## Lookups -/

/-- The last valid entry for an address. -/
def lastEntry (entries : List ArpEntry) (ip : Ip) : Option ArpEntry :=
  entries.foldl (fun found e => if e.valid ∧ e.ip = ip then some e else found) none

theorem srArpcacheLookup_eq (entries : List ArpEntry) (ip : Ip) :
    srArpcacheLookup entries ip = (lastEntry entries ip).map ArpEntry.mac := rfl

theorem foldl_lastEntry (ip : Ip) (entries : List ArpEntry) (start : Option ArpEntry) :
    entries.foldl (fun found e => if e.valid ∧ e.ip = ip then some e else found) start =
      (lastEntry entries ip).or start := by
  induction entries generalizing start with
  | nil => rfl
  | cons e entries ih =>
      have first : lastEntry (e :: entries) ip =
          (lastEntry entries ip).or (if e.valid ∧ e.ip = ip then some e else none) := ih _
      rw [List.foldl_cons, ih, first, Option.or_assoc]
      split
      · rfl
      · rfl

theorem lastEntry_append (front back : List ArpEntry) (ip : Ip) :
    lastEntry (front ++ back) ip = (lastEntry back ip).or (lastEntry front ip) := by
  rw [lastEntry, List.foldl_append, foldl_lastEntry]
  rfl

theorem lastEntry_cons (e : ArpEntry) (entries : List ArpEntry) (ip : Ip) :
    lastEntry (e :: entries) ip =
      (lastEntry entries ip).or (if e.valid ∧ e.ip = ip then some e else none) := by
  rw [lastEntry, List.foldl_cons, foldl_lastEntry]

/-- A slot that is free is not found. -/
theorem lastEntry_free {e : ArpEntry} (free : e.valid = false) (entries : List ArpEntry) (ip : Ip) :
    lastEntry (e :: entries) ip = lastEntry entries ip := by
  rw [lastEntry_cons, if_neg (by simp [free]), Option.or_none]

/-- An entry for another address is not found either. -/
theorem lastEntry_other {e : ArpEntry} {ip : Ip} (other : e.ip ≠ ip) (entries : List ArpEntry) :
    lastEntry (e :: entries) ip = lastEntry entries ip := by
  rw [lastEntry_cons, if_neg (fun both => other both.2), Option.or_none]

/-! ## Insertions -/

/-- An insertion fills the first free slot, or changes nothing. -/
theorem insertEntry_cases (new : ArpEntry) (entries : List ArpEntry) :
    (entries.dropWhile ArpEntry.valid = [] ∧ insertEntry new entries = entries) ∨
    ∃ front free behind, entries = front ++ free :: behind ∧ free.valid = false ∧
      entries.dropWhile ArpEntry.valid = free :: behind ∧
      insertEntry new entries = front ++ new :: behind := by
  induction entries with
  | nil => exact .inl ⟨rfl, rfl⟩
  | cons e entries ih =>
      cases taken : e.valid with
      | false =>
          refine .inr ⟨[], e, entries, rfl, taken, ?_, ?_⟩
          · rw [List.dropWhile_cons_of_neg (by simp [taken])]
          · rw [insertEntry, if_neg (by simp [taken])]
            rfl
      | true =>
          rw [List.dropWhile_cons_of_pos taken, insertEntry, if_pos taken]
          rcases ih with ⟨full, same⟩ | ⟨front, free, behind, split, unused, slots, inserted⟩
          · exact .inl ⟨full, by rw [same]⟩
          · refine .inr ⟨e :: front, free, behind, ?_, unused, slots, ?_⟩
            · rw [split, List.cons_append]
            · rw [inserted, List.cons_append]

/-- An insertion updates the map at its address, and nowhere else. -/
structure LastWriterWins (s : State) (now : Int) (mac : Mac) (ip : Ip) : Prop where
  written : ∀ req t, srArpcacheInsert now mac ip s = .ok req t →
    srArpcacheLookup t.entries ip = some mac
  others : ∀ req t, srArpcacheInsert now mac ip s = .ok req t → ∀ other, other ≠ ip →
    srArpcacheLookup t.entries other = srArpcacheLookup s.entries other

/-- Behind the first free slot there is no valid entry for the address with another Ethernet
address in it; in a full table, the last entry for the address has the Ethernet address
already. -/
def InsertionShows (entries : List ArpEntry) (mac : Mac) (ip : Ip) : Prop :=
  match entries.dropWhile ArpEntry.valid with
  | [] => srArpcacheLookup entries ip = some mac
  | _ :: behind => ∀ old, srArpcacheLookup behind ip = some old → old = mac

/-- The lookups of other addresses stay as they are. -/
theorem srArpcacheLookup_insert_other {new : ArpEntry} {other : Ip} (apart : other ≠ new.ip)
    (entries : List ArpEntry) :
    srArpcacheLookup (insertEntry new entries) other = srArpcacheLookup entries other := by
  rcases insertEntry_cases new entries with
    ⟨-, same⟩ | ⟨front, free, behind, split, unused, -, same⟩
  · rw [same]
  · rw [same, split, srArpcacheLookup_eq, srArpcacheLookup_eq, lastEntry_append, lastEntry_append,
      lastEntry_other apart.symm, lastEntry_free unused]

/-- Which mapping is found for the address itself. -/
theorem srArpcacheLookup_insert_iff {new : ArpEntry} (valid : new.valid = true)
    (entries : List ArpEntry) :
    srArpcacheLookup (insertEntry new entries) new.ip = some new.mac ↔
      InsertionShows entries new.mac new.ip := by
  rw [InsertionShows]
  rcases insertEntry_cases new entries with
    ⟨full, same⟩ | ⟨front, free, behind, -, -, slots, same⟩
  · rw [full, same]
  · have found : srArpcacheLookup (insertEntry new entries) new.ip =
        (srArpcacheLookup behind new.ip).or (some new.mac) := by
      rw [same, srArpcacheLookup_eq, srArpcacheLookup_eq, lastEntry_append, lastEntry_cons,
        if_pos ⟨valid, rfl⟩]
      cases lastEntry behind new.ip with
      | none => rfl
      | some old => rfl
    rw [slots, found]
    dsimp only
    cases srArpcacheLookup behind new.ip with
    | none =>
        constructor
        · intro _ old none
          cases none
        · intro _
          rfl
    | some old =>
        constructor
        · intro first old' second
          cases first
          cases second
          rfl
        · intro shows
          rw [shows old rfl]
          rfl

/-- In every table, whatever insertions and sweeps have led to it, the last writer wins unless
an older mapping for the address lies behind the first free slot or there is none. -/
theorem last_writer_wins_iff (s : State) (now : Int) (mac : Mac) (ip : Ip) :
    LastWriterWins s now mac ip ↔ InsertionShows s.entries mac ip := by
  let new : ArpEntry := ⟨mac, ip, now, true⟩
  have found : srArpcacheLookup (insertEntry new s.entries) ip = some mac ↔
      InsertionShows s.entries mac ip := srArpcacheLookup_insert_iff rfl s.entries
  rw [← found]
  constructor
  · intro wins
    exact wins.written _ _ rfl
  · intro shows
    constructor
    case written =>
      intro req t returns
      cases returns
      exact shows
    case others =>
      intro req t returns other apart
      cases returns
      exact srArpcacheLookup_insert_other apart s.entries

/-! ## Tables that are reached -/

/-- Calls that change the table. -/
inductive CacheCall
  | insert (now : Int) (mac : Mac) (ip : Ip)
  | expire (now : Int)
  deriving DecidableEq, Repr

def CacheCall.exec : CacheCall → Cmd Unit
  | .insert now mac ip => do
      let _ ← srArpcacheInsert now mac ip
      pure ()
  | .expire now => modify fun s => { s with entries := expireEntries now s.entries }

/-- 10.0.0.2 and, ten seconds later, 10.0.0.3 are entered; the first of them expires. -/
def firstExpired : List CacheCall :=
  [.insert 0 ⟨2, 0, 0, 0, 0, 2⟩ 0x0200000a, .insert 10 ⟨2, 0, 0, 0, 0, 3⟩ 0x0300000a, .expire 16]

/-- 10.0.0.3 has a new Ethernet address, which is put in front of the old one and not found. -/
theorem firstExpired_stale :
    ∃ s, firstExpired.forM CacheCall.exec State.init = .ok () s ∧
      srArpcacheLookup (insertEntry ⟨⟨2, 0, 0, 0, 0, 4⟩, 0x0300000a, 16, true⟩ s.entries)
        0x0300000a = some ⟨2, 0, 0, 0, 0, 3⟩ ∧
      ¬ LastWriterWins s 16 ⟨2, 0, 0, 0, 0, 4⟩ 0x0300000a := by
  have stale : srArpcacheLookup (insertEntry ⟨⟨2, 0, 0, 0, 0, 4⟩, 0x0300000a, 16, true⟩
      (expireEntries 16 (insertEntry ⟨⟨2, 0, 0, 0, 0, 3⟩, 0x0300000a, 10, true⟩
        (insertEntry ⟨⟨2, 0, 0, 0, 0, 2⟩, 0x0200000a, 0, true⟩ State.init.entries))))
      0x0300000a = some ⟨2, 0, 0, 0, 0, 3⟩ := by
    decide +kernel
  refine ⟨_, rfl, stale, ?_⟩
  intro wins
  have found := (wins.written _ _ rfl).symm.trans stale
  revert found
  decide

end CompNet.Router
