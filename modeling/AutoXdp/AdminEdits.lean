import AutoXdp.ConfigApply
import Mathlib.Data.Finset.Dedup
import Mathlib.Data.List.Sort
import Mathlib.Tactic.Basic

/-! The `trust`, `acl` and `permanent` commands of `auto_xdp/admin_cli.py`, which edit the
tree of the configuration file. -/
namespace AutoXdp.AdminEdits
open TomlConfig

/-- The protocols that the argument parser offers for a rule. -/
inductive AclProto where
  | tcp
  | udp
  deriving DecidableEq, Repr

def AclProto.text : AclProto → String
  | .tcp => "tcp"
  | .udp => "udp"

/-- The protocols that it offers for a permanent port. -/
inductive PortProto where
  | tcp
  | udp
  | sctp
  deriving DecidableEq, Repr

def PortProto.text : PortProto → String
  | .tcp => "tcp"
  | .udp => "udp"
  | .sctp => "sctp"

/-- A command with its arguments. -/
inductive Command where
  | trustAdd (cidr label : String)
  | trustDel (cidr : String)
  | aclAdd (proto : AclProto) (cidr : String) (port : ℤ) (ports : List ℤ)
  | aclDel (proto : AclProto) (cidr : String)
  | permanentAdd (proto : PortProto) (port : ℤ)
  | permanentDel (proto : PortProto) (port : ℤ)

abbrev Tree := List (String × Toml)

/-! What `_write_toml` accepts: no infinity, no `nan`, no date and no time. -/

mutual

def writable : Toml → Bool
  | .float (.finite _) => true
  | .float _ | .time _ => false
  | .list xs => writableItems xs
  | .dict entries => writableEntries entries
  | .bool _ | .int _ | .str _ => true

def writableItems : List Toml → Bool
  | [] => true
  | x :: xs => writable x && writableItems xs

def writableEntries : List (String × Toml) → Bool
  | [] => true
  | (_, v) :: es => writable v && writableEntries es

end

/-- `_write_toml`: `ValueError` for a float, `TypeError` for a date. -/
def writeToml (data : Tree) : Py Tree :=
  if writableEntries data then .ok data else .error .valueError

variable (lib : Library)

/-- `sorted({int(port) for port in values})`. -/
def sortedPorts (values : List ℤ) : List ℤ := values.dedup.insertionSort (· ≤ ·)

def normalizePorts (values : List ℤ) : Py (List ℤ) :=
  if ∀ port ∈ sortedPorts values, 0 < port ∧ port ≤ 65535 then .ok (sortedPorts values)
  else .error .valueError

/-- `v[key] = val`. -/
def setItem (key : String) (val : Toml) : Toml → Py Toml
  | .dict entries => .ok (.dict (PyDict.set key val entries))
  | _ => .error .typeError

/-- `v.pop(key, None)`. -/
def popItem (key : String) : Toml → Py Toml
  | .dict entries => .ok (.dict (PyDict.pop key entries))
  | .list _ => .error .typeError
  | _ => .error .attributeError

def trustAdd (cidr label : String) (data : Tree) : Py Tree := do
  let cidr ← normalizeCidr lib (.str cidr)
  let trusted := (data.lookup "trusted_ips").getD (.dict [])
  let trusted ← setItem cidr (.str label) trusted
  writeToml (PyDict.set "trusted_ips" trusted data)

def trustDel (cidr : String) (data : Tree) : Py Tree := do
  let cidr ← normalizeCidr lib (.str cidr)
  let trusted := (data.lookup "trusted_ips").getD (.dict [])
  let trusted ← popItem cidr trusted
  writeToml (PyDict.set "trusted_ips" trusted data)

/-- Whether a rule is the one that is named. A rule without a CIDR shows `None`. -/
def isNamed (proto : AclProto) (cidr : String) (rule : Toml) : Py Bool := do
  let p ← get "proto" (.str "") rule
  if lib.lower (toStr lib p) = proto.text then
    let c ← get "cidr" (.str "None") rule
    let c ← normalizeCidr lib (.str (toStr lib c))
    return c = cidr
  else return false

def otherRules (proto : AclProto) (cidr : String) (rules : List Toml) : Py (List Toml) :=
  rules.filterM fun rule => do return !(← isNamed lib proto cidr rule)

def aclAdd (proto : AclProto) (cidr : String) (ports : List ℤ) (data : Tree) : Py Tree := do
  let cidr ← normalizeCidr lib (.str cidr)
  let ports ← normalizePorts ports
  let rules ← iter ((data.lookup "acl").getD (.list []))
  let rules ← otherRules lib proto cidr rules
  let rule := .dict [("proto", .str proto.text), ("cidr", .str cidr),
    ("ports", .list (ports.map .int))]
  writeToml (PyDict.set "acl" (.list (rules ++ [rule])) data)

def aclDel (proto : AclProto) (cidr : String) (data : Tree) : Py Tree := do
  let cidr ← normalizeCidr lib (.str cidr)
  let rules ← iter ((data.lookup "acl").getD (.list []))
  let rules ← otherRules lib proto cidr rules
  writeToml (PyDict.set "acl" (.list rules) data)

def emptyPorts : Toml := .dict [("tcp", .list []), ("udp", .list []), ("sctp", .list [])]

/-- The ports of a protocol, as they stand in the tree. -/
def portsOf (proto : PortProto) (perm : Toml) : Py (List ℤ) := do
  let values ← get proto.text (.list []) perm
  let values ← iter values
  values.mapM (toInt lib)

def permanentAdd (proto : PortProto) (port : ℤ) (data : Tree) : Py Tree := do
  let _ ← normalizePorts [port]
  let perm := (data.lookup "permanent_ports").getD emptyPorts
  let values ← portsOf lib proto perm
  let values ← normalizePorts (values ++ [port])
  let perm ← setItem proto.text (.list (values.map .int)) perm
  writeToml (PyDict.set "permanent_ports" perm data)

def permanentDel (proto : PortProto) (port : ℤ) (data : Tree) : Py Tree := do
  let _ ← normalizePorts [port]
  let perm := (data.lookup "permanent_ports").getD emptyPorts
  let values ← portsOf lib proto perm
  let values ← normalizePorts values
  let perm ← setItem proto.text (.list ((values.filter (· ≠ port)).map .int)) perm
  writeToml (PyDict.set "permanent_ports" perm data)

/-- The tree that a command writes, where it reports success. -/
def edit (data : Tree) : Command → Py Tree
  | .trustAdd cidr label => trustAdd lib cidr label data
  | .trustDel cidr => trustDel lib cidr data
  | .aclAdd proto cidr port ports => aclAdd lib proto cidr (port :: ports) data
  | .aclDel proto cidr => aclDel lib proto cidr data
  | .permanentAdd proto port => permanentAdd lib proto port data
  | .permanentDel proto port => permanentDel lib proto port data

/-! What is in force. -/

/-- The global that a command is about. -/
def PortProto.target : PortProto → String
  | .tcp => "TCP_PERMANENT"
  | .udp => "UDP_PERMANENT"
  | .sctp => "SCTP_PERMANENT"

def Command.target : Command → String
  | .trustAdd .. | .trustDel _ => "TRUSTED_SRC_IPS"
  | .aclAdd .. | .aclDel .. => "ACL_RULES"
  | .permanentAdd proto _ | .permanentDel proto _ => proto.target

def entryOf (k : Key) : Option View → Option Item
  | some (.content (.dict entries)) => entries.lookup k
  | _ => none

def rulesOf : Option View → List Item
  | some (.content (.list xs)) => xs
  | _ => []

open Classical in
/-- A rule without ports is skipped. -/
noncomputable def desire (desired : Toml × String → Option (Finset ℤ)) :
    Item → Toml × String → Option (Finset ℤ)
  | .rule proto cidr ports =>
    if ports = [] then desired
    else Function.update desired (proto, cidr) (some ports.toFinset)
  | _ => desired

/-- `_desired_acl_rules`: the last rule of a key counts. -/
noncomputable def desiredAclRules (rules : List Item) : Toml × String → Option (Finset ℤ) :=
  rules.foldl desire fun _ => none

/-- The keys of a rule: its protocol in any case, and its CIDR. -/
def named (proto : AclProto) (cidr : String) (key : Toml × String) : Bool :=
  lib.lower (toStr lib key.1) = proto.text && key.2 = cidr

open Classical in
/-- The element is added, replaced or removed, and the others are as they were. -/
def Edited (before after : Option View) : Command → Prop
  | .trustAdd cidr label => ∀ cidr', normalizeCidr lib (.str cidr) = .ok cidr' → ∀ k,
    entryOf k after = if k = .str cidr' then some (.str label) else entryOf k before
  | .trustDel cidr => ∀ cidr', normalizeCidr lib (.str cidr) = .ok cidr' → ∀ k,
    entryOf k after = if k = .str cidr' then none else entryOf k before
  | .aclAdd proto cidr port ports => ∀ cidr', normalizeCidr lib (.str cidr) = .ok cidr' →
    desiredAclRules (rulesOf after) = Function.update
      (fun key => if named lib proto cidr' key then none
        else desiredAclRules (rulesOf before) key)
      (.str proto.text, cidr') (some (port :: ports).toFinset)
  | .aclDel proto cidr => ∀ cidr', normalizeCidr lib (.str cidr) = .ok cidr' →
    desiredAclRules (rulesOf after) = fun key => if named lib proto cidr' key then none
      else desiredAclRules (rulesOf before) key
  | .permanentAdd _ port => ∀ k, entryOf k after =
    if k = .int port then some (.str "config") else entryOf k before
  | .permanentDel _ port => ∀ k, entryOf k after =
    if k = .int port then none else entryOf k before

/-- What a command says of the module in which the old tree was in force. -/
def Means (required : List String) (data : Tree) (c : Command) (m : Module) : Prop :=
  ∃ m', applyTomlConfig lib required (.dict data) m = (.ok (), m') ∧
    (∀ name ∈ configNames, name ≠ c.target → m'.view name = m.view name) ∧
    Edited lib (m.view c.target) (m'.view c.target) c

/-! Where a command is right. -/

/-- Of `ipaddress` and `str.lower`: a normalised text is normalised to itself, and a text in
lower case stays. -/
structure Lawful : Prop where
  normalized : ∀ s cidr, normalizeCidr lib (.str s) = .ok cidr →
    normalizeCidr lib (.str cidr) = .ok cidr
  lower : ∀ proto : AclProto, lib.lower proto.text = proto.text

/-- The entries of `trusted_ips`. -/
def trustedEntries (data : Tree) : List (String × Toml) :=
  match data.lookup "trusted_ips" with
  | some (.dict entries) => entries
  | _ => []

def spells (cidr : String) (e : String × Toml) : Bool :=
  match normalizeCidr lib (.str e.1) with
  | .ok cidr' => cidr' = cidr
  | .error _ => false

/-- The label of a CIDR is the one that stands last. -/
def lastLabel (cidr : String) (entries : List (String × Toml)) : Option String :=
  (entries.reverse.find? (spells lib cidr)).map fun e => toStr lib e.2

/-- No key behind the normalised one spells the CIDR with another label, and where it is
deleted, no other key spells it. -/
def Plain (data : Tree) : Command → Prop
  | .trustAdd cidr label => ∀ cidr', normalizeCidr lib (.str cidr) = .ok cidr' →
    ∀ label', lastLabel lib cidr'
      ((trustedEntries data).dropWhile fun e => e.1 ≠ cidr').tail = some label' → label' = label
  | .trustDel cidr => ∀ cidr', normalizeCidr lib (.str cidr) = .ok cidr' →
    ∀ e ∈ trustedEntries data, spells lib cidr' e = true → e.1 = cidr'
  | _ => True

end AutoXdp.AdminEdits
