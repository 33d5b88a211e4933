import AutoXdp.EditAcl
import AutoXdp.EditPorts
import AutoXdp.EditTrusted
import Mathlib.Tactic.Basic

/-! What the commands of `auto_xdp/admin_cli.py` mean for the daemon. -/
namespace AutoXdp.AdminEdits
open TomlConfig
open NftScript (PyFloat)

variable (lib : Library) (required : List String)

/-- Where a command reports success, the daemon that applies the tree again sees the one
element edited and nothing else, but for the keys of `trusted_ips` that spell its CIDR in
another way. -/
theorem edit_means (hlib : Lawful lib) (data data' : Tree) (c : AdminEdits.Command)
    (m m₁ : Module) (h : m.Ok)
    (happly : applyTomlConfig lib required (.dict data) m = (.ok (), m₁))
    (hedit : edit lib data c = .ok data') :
    Means lib required data' c m₁ ↔ Plain lib data c := by
  cases c with
  | trustAdd cidr label => exact trustAdd_means hlib h happly hedit
  | trustDel cidr => exact trustDel_means hlib h happly hedit
  | aclAdd proto cidr port ports => exact iff_true_intro (aclAdd_means hlib h happly hedit)
  | aclDel proto cidr => exact iff_true_intro (aclDel_means h happly hedit)
  | permanentAdd proto port => exact iff_true_intro (permanentAdd_means h happly hedit)
  | permanentDel proto port => exact iff_true_intro (permanentDel_means h happly hedit)

/-! A host. -/

/-- A library that knows one address and the double next to 0.4. -/
def hostLibrary : Library where
  round q := .finite (if q = 2/5 then 3602879701896397/9007199254740992 else q)
  intOfStr _ := none
  floatOfStr _ := none
  reprOf _ := ""
  lower := id
  ipv4Address _ := none
  ipv4Network s := if s = "10.0.0.1" ∨ s = "10.0.0.1/32" then some "10.0.0.1/32" else none
  ipv6Network _ := none

theorem hostLibrary_lawful : Lawful hostLibrary := by
  constructor
  case normalized =>
    intro s cidr h
    have hself : normalizeCidr hostLibrary (.str "10.0.0.1/32") = .ok "10.0.0.1/32" := by rfl
    unfold normalizeCidr hostLibrary at h
    dsimp only at h
    split_ifs at h with hcolon hs
    · exact absurd h nofun
    · rw [← Except.ok.inj h]
      exact hself
    · exact absurd h nofun
  case lower => exact fun _ => rfl

/-- The tree of a host that is trusted under a key. -/
def hostTree (key : String) : Tree := [("trusted_ips", .dict [(key, .str "ops")])]

def hostModule : Module := imported hostLibrary ["prog"]

theorem host_applied : ∀ key ∈ ["10.0.0.1", "10.0.0.1/32"],
    applyTomlConfig hostLibrary ["prog"] (.dict (hostTree key)) hostModule =
      (.ok (), (applyTomlConfig hostLibrary ["prog"] (.dict (hostTree key)) hostModule).2) := by
  intro key hkey
  rcases List.mem_cons.mp hkey with rfl | hkey
  · rfl
  · rw [List.mem_singleton.mp hkey]
    rfl

theorem host_edited : ∀ key ∈ ["10.0.0.1", "10.0.0.1/32"],
    edit hostLibrary (hostTree key) (.trustDel "10.0.0.1") =
      .ok [("trusted_ips", .dict (PyDict.pop "10.0.0.1/32" [(key, .str "ops")]))] := by
  intro key hkey
  rcases List.mem_cons.mp hkey with rfl | hkey
  · rfl
  · rw [List.mem_singleton.mp hkey]
    rfl

theorem hostModule_ok : hostModule.Ok := imported_ok hostLibrary ["prog"]

/-- The key with its prefix length is the one that the command deletes. -/
theorem edit_means_host : ∃ data' m₁,
    applyTomlConfig hostLibrary ["prog"] (.dict (hostTree "10.0.0.1/32")) hostModule =
      (.ok (), m₁) ∧
    edit hostLibrary (hostTree "10.0.0.1/32") (.trustDel "10.0.0.1") = .ok data' ∧
    Means hostLibrary ["prog"] data' (.trustDel "10.0.0.1") m₁ := by
  have hkey : "10.0.0.1/32" ∈ ["10.0.0.1", "10.0.0.1/32"] :=
    List.mem_cons_of_mem _ List.mem_cons_self
  have happly := host_applied _ hkey
  have hedit := host_edited _ hkey
  refine ⟨_, _, happly, hedit, ?_⟩
  apply (edit_means hostLibrary ["prog"] hostLibrary_lawful (hostTree "10.0.0.1/32") _
    (.trustDel "10.0.0.1") hostModule _ hostModule_ok happly hedit).mpr
  intro cidr hcidr e he _
  rw [List.mem_singleton.mp he]
  exact Except.ok.inj hcidr

/-- A bare address in the file stays in force: the command deletes another key. -/
theorem bare_address_stays : ¬∀ (lib : Library) (required : List String) (data data' : Tree)
    (c : AdminEdits.Command) (m m₁ : Module), Lawful lib → m.Ok →
    applyTomlConfig lib required (.dict data) m = (.ok (), m₁) → edit lib data c = .ok data' →
    Means lib required data' c m₁ := by
  intro hclaim
  have hkey : "10.0.0.1" ∈ ["10.0.0.1", "10.0.0.1/32"] := List.mem_cons_self
  have happly := host_applied _ hkey
  have hedit := host_edited _ hkey
  have hmeans := hclaim _ _ _ _ _ _ _ hostLibrary_lawful hostModule_ok happly hedit
  have hplain := (trustDel_means hostLibrary_lawful hostModule_ok happly hedit).mp hmeans
  have heq := hplain "10.0.0.1/32" rfl ("10.0.0.1", .str "ops") List.mem_cons_self rfl
  exact absurd heq (by decide)

end AutoXdp.AdminEdits
