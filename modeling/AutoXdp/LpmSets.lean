import AutoXdp.NftRuleset
import AutoXdp.XdpConntrack
import Mathlib.Tactic.Basic

/-! Tries that hold a set of networks: which addresses they match. -/
namespace AutoXdp

namespace LpmKey

/-- A network of its family, as `normalize_cidr` writes it. -/
def IsNetwork (k : LpmKey) : Prop := k.normalize = k ∧ k.prefixlen ≤ k.addr.bits

end LpmKey

theorem network_network (a : Addr) (n : ℕ) : (a.network n).network n = a.network n := by
  cases a <;> simp only [Addr.network, BitVec.and_assoc, BitVec.and_self]

theorem covers_iff (k : LpmKey) (a : Addr) :
    k.covers a = true ↔ k.normalize = ⟨k.prefixlen, a.network k.prefixlen⟩ := by
  rw [LpmKey.covers, beq_iff_eq, LpmKey.normalize, LpmKey.mk.injEq]
  exact ⟨fun h => ⟨rfl, h.symm⟩, fun h => h.2.symm⟩

theorem covers_family (k : LpmKey) (a : Addr) (h : k.covers a = true) :
    k.addr.family = a.family := by
  rw [LpmKey.covers, beq_iff_eq] at h
  cases a <;> cases hk : k.addr <;> rw [hk] at h <;> first | rfl | exact absurd h nofun

theorem covers_bits (k : LpmKey) (a : Addr) (h : k.covers a = true) : k.addr.bits = a.bits := by
  have hfam := covers_family k a h
  cases a <;> cases hk : k.addr <;> rw [hk] at hfam <;> first | rfl | exact absurd hfam nofun

theorem exists_of_isSet (o : Option U32) (h : isSet o = true) : ∃ v, o = some v := by
  cases o with
  | none => exact absurd h nofun
  | some v => exact ⟨v, rfl⟩

/-- A trie of networks, each with the value 1, matches what one of them covers. -/
theorem isSet_lpmLookup (t : BpfMap LpmKey U32) (listed : LpmKey → Prop) [DecidablePred listed]
    (ht : ∀ k, t.lookup k = if listed k then some 1 else none)
    (hnetwork : ∀ k, listed k → k.IsNetwork) (a : Addr) :
    isSet (lpmLookup t a) = true ↔ ∃ k, listed k ∧ k.covers a = true := by
  rw [lpmLookup]
  simp only [ht]
  constructor
  · intro h
    obtain ⟨v, hv⟩ := exists_of_isSet _ h
    obtain ⟨n, -, hn⟩ := List.exists_of_findSome?_eq_some hv
    split_ifs at hn with hk
    refine ⟨⟨n, a.network n⟩, hk, ?_⟩
    rw [LpmKey.covers, network_network, beq_self_eq_true]
  · rintro ⟨k, hk, hcovers⟩
    obtain ⟨hnormal, hle⟩ := hnetwork k hk
    have hkey : k = ⟨k.prefixlen, a.network k.prefixlen⟩ :=
      hnormal.symm.trans ((covers_iff k a).mp hcovers)
    rw [covers_bits k a hcovers] at hle
    -- the search meets this length, if no longer one
    have hsome : ((List.range (a.bits + 1)).reverse.findSome? fun n =>
        if listed ⟨n, a.network n⟩ then some (1 : U32) else none).isSome = true := by
      rw [List.findSome?_isSome_iff]
      refine ⟨k.prefixlen, by simp; omega, ?_⟩
      rw [if_pos (hkey ▸ hk)]
      rfl
    obtain ⟨v, hv⟩ := Option.isSome_iff_exists.mp hsome
    obtain ⟨n, -, hn⟩ := List.exists_of_findSome?_eq_some hv
    split_ifs at hn
    rw [hv, ← Option.some.inj hn]
    rfl

end AutoXdp
