import AutoXdp.BlocklistReplacement
import Mathlib.Tactic.Basic

/-! Refreshes of the blocklist from its feeds: `fetch_blocklist` and
`AbuseIPDBSyncer._refresh` (`auto_xdp/abuseipdb.py`). -/
namespace AutoXdp
open StateSteps BpfRiskMaps

namespace BlocklistFeeds

/-- `_SOURCES_V4`. -/
def sourcesV4 : List (Text × Text) :=
  [("s1001d".toList, "abuseipdb-s100-1d.ipv4".toList),
    ("s1003d".toList, "abuseipdb-s100-3d.ipv4".toList),
    ("s1007d".toList, "abuseipdb-s100-7d.ipv4".toList),
    ("s10014d".toList, "abuseipdb-s100-14d.ipv4".toList),
    ("s10030d".toList, "abuseipdb-s100-30d.ipv4".toList),
    ("s10060d".toList, "abuseipdb-s100-60d.ipv4".toList),
    ("s10090d".toList, "abuseipdb-s100-90d.ipv4".toList),
    ("s100120d".toList, "abuseipdb-s100-120d.ipv4".toList)]

/-- What comes of one request: a decoded body, an error that `fetch_blocklist` catches
(`URLError`, `OSError`), or another one. -/
inductive Response where
  | body (text : Text) | failed | raised

/-- Where `str.splitlines` ends a line. -/
def isLineBreak (c : Char) : Bool :=
  let n := c.toNat
  (10 ≤ n && n ≤ 13) || (28 ≤ n && n ≤ 30) || n == 0x85 || n == 0x2028 || n == 0x2029

/-- `str.splitlines`, with the characters of the line so far, the last one first. -/
def splitlines : Text → Text → List Text
  | [], [] => []
  | line, [] => [line.reverse]
  | line, '\r' :: '\n' :: rest => line.reverse :: splitlines [] rest
  | line, c :: rest =>
    if isLineBreak c then line.reverse :: splitlines [] rest else splitlines (c :: line) rest

/-- The lines without their comments, as far as something is left of them. -/
def entries (body : Text) : List Text :=
  ((splitlines [] body).map fun line => strip (line.takeWhile (· ≠ '#'))).filter (!·.isEmpty)

/-- `base_url.rstrip('/')`, and the file behind it. -/
def feedUrl (baseUrl filename : Text) : Text :=
  (baseUrl.reverse.dropWhile (· = '/')).reverse ++ '/' :: filename

/-- `fetch_blocklist`; `none` when it raises. -/
def fetchBlocklist (urlopen : Text → Response) (baseUrl sourceKey : Text) : Option (List Text) :=
  match sourcesV4.lookup sourceKey with
  | none => some []
  | some filename =>
    match urlopen (feedUrl baseUrl filename) with
    | .body text => some (entries text)
    | .failed => some []
    | .raised => none

/-- `base_url` and `sources` of the syncer. -/
structure Config where
  baseUrl : Text
  sources : List Text

/-- The answers to the requests of one refresh, in the order of the sources. -/
abbrev Round := ℕ → Text → Response

/-- The strings of a list that are new to `ips`, behind it. -/
def merge (ips fetched : List Text) : List Text :=
  fetched.foldl (fun ips ip => if ip ∈ ips then ips else ips ++ [ip]) ips

def collect (round : Round) (baseUrl : Text) : ℕ → List Text → List Text → Option (List Text)
  | _, [], ips => some ips
  | i, src :: rest, ips =>
    match fetchBlocklist (round i) baseUrl src with
    | none => none
    | some fetched => collect round baseUrl (i+1) rest (merge ips fetched)

/-- `_refresh`. What `replace_all` raises is logged. -/
def refresh (ip : IpParsers) (cfg : Config) (round : Round) : RiskM PUnit :=
  match collect round cfg.baseUrl 0 cfg.sources [] with
  | none | some [] => pure ⟨⟩
  | some ips => discard (replaceAll ip ips)

/-! What the feeds said. -/

/-- The list of a fetch that succeeded. -/
def succeeded (urlopen : Text → Response) (baseUrl sourceKey : Text) : Option (List Text) :=
  (sourcesV4.lookup sourceKey).bind fun filename =>
    match urlopen (feedUrl baseUrl filename) with
    | .body text => some (entries text)
    | _ => none

/-- In this round a fetch of the source succeeded with this list. -/
def Fetched (cfg : Config) (round : Round) (x : Text) (list : List Text) : Prop :=
  ∃ i, cfg.sources[i]? = some x ∧ succeeded (round i) cfg.baseUrl x = some list

/-- What each source listed in its last successful fetch. -/
abbrev LastLists := Text → Option (List Text)

/-- The fetches of one round, until one raises. -/
def remember (round : Round) (baseUrl : Text) : ℕ → List Text → LastLists → LastLists
  | _, [], last => last
  | i, src :: rest, last =>
    if fetchBlocklist (round i) baseUrl src = none then last
    else remember round baseUrl (i+1) rest
      (match succeeded (round i) baseUrl src with
        | some list => Function.update last src (some list)
        | none => last)

/-- The kernel with the wrapper, and what the sources listed. -/
structure Feed where
  risk : RiskState
  last : LastLists := fun _ => none

def step (ip : IpParsers) (cfg : Config) (f : Feed) (round : Round) : Feed :=
  ⟨(refresh ip cfg round f.risk).2, remember round cfg.baseUrl 0 cfg.sources f.last⟩

/-- An entry of the list is a network that holds the address. -/
def Lists (ip : IpParsers) (list : List Text) (a : U32) : Prop :=
  ∃ text ∈ list, ∃ k, normalizeV4 ip [text] [] = .ok [k] ∧ k.covers (.v4 a) = true

variable {round : Round} {baseUrl : Text} {ip : IpParsers}

theorem fetchBlocklist_of_succeeded {urlopen : Text → Response} {key : Text} {list : List Text}
    (h : succeeded urlopen baseUrl key = some list) :
    fetchBlocklist urlopen baseUrl key = some list := by
  obtain ⟨filename, hname, hlist⟩ := Option.bind_eq_some_iff.mp h
  cases hresponse : urlopen (feedUrl baseUrl filename) with
  | body text =>
    rw [hresponse] at hlist
    simp only [fetchBlocklist, hname, hresponse]
    exact hlist
  | failed | raised =>
    rw [hresponse] at hlist
    exact absurd hlist nofun

theorem mem_merge (text : Text) (ips fetched : List Text) :
    text ∈ merge ips fetched ↔ text ∈ ips ∨ text ∈ fetched := by
  induction fetched generalizing ips with
  | nil => simp only [merge, List.foldl_nil, List.not_mem_nil, or_false]
  | cons t ts ih =>
    have hstep : merge ips (t :: ts) = merge (if t ∈ ips then ips else ips ++ [t]) ts := rfl
    rw [hstep, ih, List.mem_cons]
    split_ifs with ht
    · constructor
      · tauto
      · rintro (h | rfl | h)
        · exact Or.inl h
        · exact Or.inl ht
        · exact Or.inr h
    · rw [List.mem_append, List.mem_singleton, or_assoc]

/-- What a source lists is among the strings collected. -/
theorem mem_collect {sources ips all : List Text} {i : ℕ}
    (h : collect round baseUrl i sources ips = some all) :
    (∀ text ∈ ips, text ∈ all) ∧ ∀ j x list, sources[j]? = some x →
      fetchBlocklist (round (i+j)) baseUrl x = some list → ∀ text ∈ list, text ∈ all := by
  induction sources generalizing i ips with
  | nil =>
    obtain rfl := Option.some.inj h
    exact ⟨fun _ => id, fun j x list hx => absurd hx nofun⟩
  | cons src rest ih =>
    rw [collect] at h
    cases hfetch : fetchBlocklist (round i) baseUrl src with
    | none =>
      rw [hfetch] at h
      exact absurd h nofun
    | some fetched =>
      rw [hfetch] at h
      obtain ⟨hbefore, hlater⟩ := ih h
      refine ⟨fun text ht => hbefore text ((mem_merge ..).mpr (Or.inl ht)), ?_⟩
      intro j x list hx hlist text ht
      cases j with
      | zero =>
        obtain rfl : src = x := Option.some.inj hx
        rw [Nat.add_zero, hfetch] at hlist
        obtain rfl := Option.some.inj hlist
        exact hbefore text ((mem_merge ..).mpr (Or.inr ht))
      | succ j =>
        rw [← Nat.add_assoc, Nat.add_right_comm] at hlist
        exact hlater j x list hx hlist text ht

theorem lists_of_fetched {cfg : Config} {x : Text} {list ips : List Text} {a : U32}
    (hcollect : collect round cfg.baseUrl 0 cfg.sources [] = some ips)
    (hfetched : Fetched cfg round x list) (h : Lists ip list a) : Lists ip ips a := by
  obtain ⟨i, hx, hlist⟩ := hfetched
  obtain ⟨text, ht, hk⟩ := h
  have hfetch := fetchBlocklist_of_succeeded hlist
  rw [← Nat.zero_add i] at hfetch
  exact ⟨text, (mem_collect hcollect).2 i x list hx hfetch text ht, hk⟩

/-- An entry is rejected, left out, or one network. -/
theorem normalizeV4_cons (text : Text) (ips : List Text) (normalized : List LpmKey) :
    (∃ raised, normalizeV4 ip (text :: ips) normalized = .error raised) ∨
    (normalizeV4 ip [text] [] = .ok [] ∧
      normalizeV4 ip (text :: ips) normalized = normalizeV4 ip ips normalized) ∨
    ∃ k, normalizeV4 ip [text] [] = .ok [k] ∧
      normalizeV4 ip (text :: ips) normalized = normalizeV4 ip ips (setAdd k normalized) := by
  simp only [normalizeV4]
  generalize (if '/' ∈ strip text then strip text else strip text ++ ['/', '3', '2']) = value
  split_ifs
  · exact Or.inr (Or.inl ⟨rfl, rfl⟩)
  · exact Or.inr (Or.inl ⟨rfl, rfl⟩)
  · exact Or.inl ⟨_, rfl⟩
  · cases ip.ipv4Network value with
    | none => exact Or.inl ⟨_, rfl⟩
    | some net => exact Or.inr (Or.inr ⟨_, rfl, rfl⟩)

/-- The networks that an accepted list is normalised to. -/
theorem mem_normalizeV4 {ips : List Text} {normalized target : List LpmKey}
    (h : normalizeV4 ip ips normalized = .ok target) (k : LpmKey) :
    k ∈ target ↔ k ∈ normalized ∨ ∃ text ∈ ips, normalizeV4 ip [text] [] = .ok [k] := by
  induction ips generalizing normalized with
  | nil =>
    rw [normalizeV4, Except.ok.injEq] at h
    simp only [h, List.not_mem_nil, false_and, exists_false, or_false]
  | cons text ips ih =>
    simp only [List.mem_cons, exists_eq_or_imp]
    rcases normalizeV4_cons text ips normalized with ⟨raised, hraised⟩ | ⟨hentry, hrest⟩ |
      ⟨n, hentry, hrest⟩
    · exact absurd (hraised.symm.trans h) (by rintro ⟨⟩)
    · have hno : ¬normalizeV4 ip [text] [] = .ok [k] := by
        rw [hentry]
        rintro ⟨⟩
      rw [ih (hrest.symm.trans h)]
      tauto
    · have hiff : normalizeV4 ip [text] [] = .ok [k] ↔ k = n := by
        rw [hentry, Except.ok.injEq, List.cons.injEq, eq_comm]
        exact and_iff_left rfl
      rw [ih (hrest.symm.trans h), hiff, mem_setAdd]
      tauto

theorem covered_iff {ips : List Text} {target : List LpmKey}
    (h : normalizeV4 ip ips [] = .ok target) (a : U32) : Covered target a ↔ Lists ip ips a := by
  constructor
  · rintro ⟨k, hk, hcovers⟩
    rcases (mem_normalizeV4 h k).mp hk with hk | ⟨text, ht, hentry⟩
    · exact absurd hk List.not_mem_nil
    · exact ⟨text, ht, k, hentry, hcovers⟩
  · rintro ⟨text, ht, k, hentry, hcovers⟩
    exact ⟨k, (mem_normalizeV4 h k).mpr (Or.inr ⟨text, ht, hentry⟩), hcovers⟩

end BlocklistFeeds

end AutoXdp
