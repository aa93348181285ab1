import CompNet.Lib.LastMax
import CompNet.Router.Cache
import Mathlib.Data.List.Pairwise

/-!
# Routes

The routing table is searched for the greatest mask, where a mask is the word that a
little-endian machine loads from four bytes in network order.  For the masks of
prefixes this is the order of the prefix lengths, so that the search finds the
longest prefix.
-/

namespace CompNet.Router

open CompNet.Lib

/-! ## The search -/

/-- The entry and the address agree under the mask. -/
def Route.Matches (rt : Route) (ip : Ip) : Prop := ip &&& rt.mask = rt.dest &&& rt.mask

/-- The state of the search behind a part of the table. -/
def Searched (ip : Ip) (table : List Route) : Option Route × Ip → Prop
  | (none, mask) => mask = 0 ∧ ∀ rt ∈ table, ¬ rt.Matches ip
  | (some rt, mask) => mask = rt.mask ∧ IsLastMax (·.Matches ip) (·.mask.toNat) table rt

/-- One entry more. -/
theorem searched_snoc {ip : Ip} {table : List Route} {best : Option Route × Ip}
    (searched : Searched ip table best) (rt : Route) :
    Searched ip (table ++ [rt]) (longerMatch ip best rt) := by
  obtain ⟨found, mask⟩ := best
  rw [longerMatch]
  split_ifs with taken
  · refine ⟨rfl, isLastMax_snoc taken.1 ?_⟩
    intro other member fits
    cases found with
    | none => exact absurd fits (searched.2 other member)
    | some old =>
        obtain ⟨rfl, last⟩ := searched
        exact le_trans (last.le member fits) (UInt32.le_iff_toNat_le.mp taken.2)
  · cases found with
    | none =>
        obtain ⟨zero, none⟩ := searched
        refine ⟨zero, ?_⟩
        intro other member fits
        rcases List.mem_append.mp member with front | new
        · exact none other front fits
        · rw [List.mem_singleton.mp new] at fits
          refine taken ⟨fits, ?_⟩
          rw [zero]
          exact UInt32.le_iff_toNat_le.mpr (Nat.zero_le _)
    | some old =>
        obtain ⟨rfl, last⟩ := searched
        refine ⟨rfl, last.stay fun fits => ?_⟩
        exact lt_of_not_ge fun better => taken ⟨fits, UInt32.le_iff_toNat_le.mpr better⟩

theorem searched_foldl (ip : Ip) (table : List Route) :
    Searched ip table (table.foldl (longerMatch ip) (none, 0)) := by
  induction table using List.reverseRecOn with
  | nil => exact ⟨rfl, fun rt member => absurd member List.not_mem_nil⟩
  | append_singleton table rt ih =>
      rw [List.foldl_append]
      exact searched_snoc ih rt

theorem srGetLongestPrefixMatch_eq_none {sr : Instance} {ip : Ip} :
    srGetLongestPrefixMatch sr ip = none ↔ ∀ rt ∈ sr.routingTable, ¬ rt.Matches ip := by
  have searched := searched_foldl ip sr.routingTable
  rw [srGetLongestPrefixMatch]
  generalize sr.routingTable.foldl (longerMatch ip) (none, 0) = best at searched
  obtain ⟨found, mask⟩ := best
  cases found with
  | none => exact ⟨fun _ => searched.2, fun _ => rfl⟩
  | some rt =>
      constructor
      · intro same
        cases same
      · intro none
        exact absurd searched.2.candidate (none rt searched.2.mem)

theorem srGetLongestPrefixMatch_isLastMax {sr : Instance} {ip : Ip} {rt : Route}
    (found : srGetLongestPrefixMatch sr ip = some rt) :
    IsLastMax (·.Matches ip) (·.mask.toNat) sr.routingTable rt := by
  have searched := searched_foldl ip sr.routingTable
  rw [srGetLongestPrefixMatch] at found
  generalize sr.routingTable.foldl (longerMatch ip) (none, 0) = best at searched found
  obtain ⟨best, mask⟩ := best
  cases found
  exact searched.2

/-! ## Masks -/

/-- The byte of a prefix mask in which `n` bits are left to set. -/
def maskByte (n : Nat) : UInt8 := UInt8.ofNat (256 - 2 ^ (8 - n))

/-- The mask of a prefix of length `n`: its bytes in network order, as a word. -/
def prefixMask (n : Nat) : Ip :=
  ipOf [maskByte n, maskByte (n - 8), maskByte (n - 16), maskByte (n - 24)]

/-- The number of ones of a mask. -/
def Route.prefixLength (rt : Route) : Nat := (List.range 32).countP fun i => rt.mask.toNat.testBit i

example : prefixMask 20 = 0x00f0ffff := by decide

theorem prefixMask_le : ∀ n k : Fin 33, prefixMask n ≤ prefixMask k ↔ n ≤ k := by
  decide +kernel

theorem countP_prefixMask :
    ∀ n : Fin 33, (List.range 32).countP (fun i => (prefixMask n).toNat.testBit i) = n := by
  decide +kernel

/-- The masks are ordered as the prefix lengths are. -/
theorem mask_le_iff {rt other : Route} (mask : ∃ n ≤ 32, rt.mask = prefixMask n)
    (mask' : ∃ n ≤ 32, other.mask = prefixMask n) :
    rt.mask ≤ other.mask ↔ rt.prefixLength ≤ other.prefixLength := by
  obtain ⟨n, small, same⟩ := mask
  obtain ⟨k, small', same'⟩ := mask'
  have length : rt.prefixLength = n := by
    rw [Route.prefixLength, same]
    exact countP_prefixMask ⟨n, by omega⟩
  have length' : other.prefixLength = k := by
    rw [Route.prefixLength, same']
    exact countP_prefixMask ⟨k, by omega⟩
  rw [length, length', same, same']
  exact prefixMask_le ⟨n, by omega⟩ ⟨k, by omega⟩

/-! ## The longest prefix -/

/-- Two entries for the same destinations. -/
def Route.SameNet (rt other : Route) : Prop :=
  rt.mask = other.mask ∧ rt.dest &&& rt.mask = other.dest &&& other.mask

theorem Route.SameNet.symm {rt other : Route} (same : rt.SameNet other) : other.SameNet rt :=
  ⟨same.1.symm, same.2.symm⟩

/-- If no two entries are for the same destinations, the entries that match an address have
different masks. -/
theorem eq_of_matches {table : List Route} {ip : Ip}
    (distinct : table.Pairwise fun rt other => ¬ rt.SameNet other) :
    ∀ rt ∈ table, ∀ other ∈ table, rt.Matches ip → other.Matches ip →
      rt.mask.toNat = other.mask.toNat → rt = other := by
  intro rt member other member' fits fits' same
  have mask : rt.mask = other.mask := UInt32.toNat_inj.mp same
  have net : rt.SameNet other := by
    refine ⟨mask, ?_⟩
    rw [← fits, ← fits', mask]
  have : Std.Symm fun rt other : Route => ¬ rt.SameNet other :=
    ⟨fun _ _ apart same => apart same.symm⟩
  by_contra differ
  exact distinct.forall member member' differ net

/-- The search finds a matching entry if there is one, of the greatest prefix length and the
last of these; if no two entries are for the same destinations, the order of the table does not
matter. -/
theorem longest_prefix_match (sr : Instance) (ip : Ip)
    (masks : ∀ rt ∈ sr.routingTable, ∃ n ≤ 32, rt.mask = prefixMask n) :
    (srGetLongestPrefixMatch sr ip = none ↔ ∀ rt ∈ sr.routingTable, ¬ rt.Matches ip) ∧
      (∀ rt, srGetLongestPrefixMatch sr ip = some rt →
        IsLastMax (·.Matches ip) Route.prefixLength sr.routingTable rt) ∧
      (sr.routingTable.Pairwise (fun rt other => ¬ rt.SameNet other) →
        ∀ sr' : Instance, sr'.routingTable.Perm sr.routingTable →
          srGetLongestPrefixMatch sr' ip = srGetLongestPrefixMatch sr ip) := by
  have ordered : ∀ {rt other : Route}, rt ∈ sr.routingTable → other ∈ sr.routingTable →
      (rt.mask.toNat ≤ other.mask.toNat ↔ rt.prefixLength ≤ other.prefixLength) := by
    intro rt other member member'
    rw [← UInt32.le_iff_toNat_le]
    exact mask_le_iff (masks rt member) (masks other member')
  refine ⟨srGetLongestPrefixMatch_eq_none, ?_, ?_⟩
  · intro rt found
    have last := srGetLongestPrefixMatch_isLastMax found
    have here := last.mem
    obtain ⟨candidate, before, behind, split, least, less⟩ := last
    refine ⟨candidate, before, behind, split, ?_, ?_⟩
    · intro other member fits
      have there : other ∈ sr.routingTable := by
        rw [split]
        exact List.mem_append_left _ member
      exact (ordered there here).mp (least other member fits)
    · intro other member fits
      have there : other ∈ sr.routingTable := by
        rw [split]
        exact List.mem_append_right _ (List.mem_cons_of_mem rt member)
      have := mt (ordered here there).mpr
      exact lt_of_not_ge (this (not_le.mpr (less other member fits)))
  · intro distinct sr' perm
    have none_iff : srGetLongestPrefixMatch sr' ip = none ↔
        srGetLongestPrefixMatch sr ip = none := by
      rw [srGetLongestPrefixMatch_eq_none, srGetLongestPrefixMatch_eq_none]
      exact forall_congr' fun rt => by rw [perm.mem_iff]
    cases found : srGetLongestPrefixMatch sr ip with
    | none => exact none_iff.mpr found
    | some rt =>
        cases found' : srGetLongestPrefixMatch sr' ip with
        | none =>
            rw [none_iff.mp found'] at found
            cases found
        | some rt' =>
            have last := srGetLongestPrefixMatch_isLastMax found
            have last' := srGetLongestPrefixMatch_isLastMax found'
            rw [last.eq_of_perm last' perm.symm (eq_of_matches distinct)]

/-- A default route, and routes for 10.0.0.0/8 and 10.1.0.0/16. -/
def threeRoutes : Instance where
  ifList := []
  routingTable := [⟨0x0000010a, 1, prefixMask 16, [101, 49]⟩, ⟨0, 2, prefixMask 0, [101, 50]⟩,
    ⟨0x0000000a, 3, prefixMask 8, [101, 51]⟩]

theorem longest_prefix_match_threeRoutes :
    srGetLongestPrefixMatch threeRoutes 0x0500010a =
        some ⟨0x0000010a, 1, prefixMask 16, [101, 49]⟩ ∧
      (srGetLongestPrefixMatch threeRoutes 0x0500010a = none ↔
        ∀ rt ∈ threeRoutes.routingTable, ¬ rt.Matches 0x0500010a) := by
  refine ⟨by decide, (longest_prefix_match threeRoutes 0x0500010a ?_).1⟩
  intro rt member
  rcases List.mem_cons.mp member with rfl | member
  · exact ⟨16, by decide, rfl⟩
  rcases List.mem_cons.mp member with rfl | member
  · exact ⟨0, by decide, rfl⟩
  · rw [List.mem_singleton.mp member]
    exact ⟨8, by decide, rfl⟩

end CompNet.Router
