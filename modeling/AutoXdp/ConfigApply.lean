import AutoXdp.ConfigSections
import Mathlib.Data.List.GetD
import Mathlib.Tactic.Basic

/-! A configuration is applied as a whole or not at all. -/
namespace AutoXdp.TomlConfig

/-! The rollback. -/

section Rollback

variable {m : Module}

theorem lookup_filter (p : String → Bool) (es : List (String × Value)) (name : String) :
    (es.filter fun e => p e.1).lookup name = if p name then es.lookup name else none := by
  induction es with
  | nil =>
    rw [List.filter_nil, List.lookup_nil]
    split_ifs with hp
    · rfl
    · rfl
  | cons e es ih =>
    obtain ⟨key, v⟩ := e
    rw [List.filter_cons]
    by_cases hkey : name = key
    · subst hkey
      by_cases hp : p name = true
      · rw [if_pos hp, if_pos hp, List.lookup_cons_self, List.lookup_cons_self]
      · rw [if_neg hp, ih, if_neg hp, if_neg hp]
    · rw [PyDict.lookup_cons_ne hkey, ← ih]
      split_ifs with hp
      · exact PyDict.lookup_cons_ne hkey v _
      · rfl

/-- The names of the snapshot are bound as they were. -/
theorem lookup_restored (copy : ℕ → Content) (es : List (String × Value))
    (hes : (es.map Prod.fst).Nodup) (name : String) :
    ((es.map fun e => ⟨e.1, e.2, copy⟩).foldl restore m).globals.lookup name =
      (es.lookup name).or (m.globals.lookup name) := by
  induction es generalizing m with
  | nil => rfl
  | cons e es ih =>
    obtain ⟨key, v⟩ := e
    rw [List.map_cons, List.nodup_cons] at hes
    rw [List.map_cons, List.foldl_cons, ih hes.2, restore]
    by_cases hkey : name = key
    · subst hkey
      have hnone : es.lookup name = none := by
        cases hlookup : es.lookup name with
        | none => rfl
        | some v' =>
          have hmem := (List.lookup_isSome_iff.mp (Option.isSome_of_eq_some hlookup))
          obtain ⟨e, he, heq⟩ := hmem
          exact absurd (List.mem_map.mpr ⟨e, he, (eq_of_beq heq).symm⟩) hes.1
      rw [hnone, Option.none_or, PyDict.lookup_set_self, List.lookup_cons_self]
      rfl
    · rw [PyDict.lookup_set_ne hkey, PyDict.lookup_cons_ne hkey]

/-- The containers of the snapshot have the content that they had. -/
theorem heap_restored (copy : ℕ → Content) (es : List (String × Value)) (a : ℕ) :
    (∀ e ∈ es, e.2 ≠ .ref a) ∧
      ((es.map fun e => ⟨e.1, e.2, copy⟩).foldl restore m).heap a = m.heap a ∨
    (∃ e ∈ es, e.2 = .ref a) ∧
      ((es.map fun e => ⟨e.1, e.2, copy⟩).foldl restore m).heap a = copy a := by
  induction es generalizing m with
  | nil => exact Or.inl ⟨fun _ he => absurd he List.not_mem_nil, rfl⟩
  | cons e es ih =>
    obtain ⟨key, v⟩ := e
    rw [List.map_cons, List.foldl_cons]
    rcases ih (m := restore m ⟨key, v, copy⟩) with ⟨hnone, hheap⟩ | ⟨⟨e, he, hv⟩, hheap⟩
    · rw [hheap, restore]
      by_cases hv : v = .ref a
      · subst hv
        exact Or.inr ⟨⟨_, List.mem_cons_self, rfl⟩, Function.update_self ..⟩
      · refine Or.inl ⟨List.forall_mem_cons.mpr ⟨hv, hnone⟩, ?_⟩
        cases v with
        | scalar v => rfl
        | ref a' =>
          have hne : a ≠ a' := by
            rintro rfl
            exact hv rfl
          exact Function.update_of_ne hne ..
    · exact Or.inr ⟨⟨e, List.mem_cons_of_mem _ he, hv⟩, hheap⟩

theorem nodup_restored (saved : List Saved) (h : (m.globals.map Prod.fst).Nodup) :
    ((saved.foldl restore m).globals.map Prod.fst).Nodup := by
  induction saved generalizing m with
  | nil => exact h
  | cons s saved ih => exact ih (PyDict.nodup_set h)

theorem fresh_restored (saved : List Saved) : (saved.foldl restore m).fresh = m.fresh := by
  induction saved generalizing m with
  | nil => rfl
  | cons s saved ih => exact ih

/-- A write binds no name anew but those of scalars and of `ABUSEIPDB_SOURCES`. -/
theorem lookup_run {log : List Command} (hlog : ∀ c ∈ log, c.Typed clearedContainers)
    {name : String} (hname : name ∉ scalarNames) : (m.run log).globals.lookup name = m.globals.lookup name := by
  induction log generalizing m with
  | nil => rfl
  | cons c log ih =>
    obtain ⟨hc, hlog⟩ := List.forall_mem_cons.mp hlog
    refine (ih hlog).trans ?_
    by_cases hassign : ∃ name v, c = .assign name v
    · obtain ⟨name', v, rfl⟩ := hassign
      have hne : name ≠ name' := by
        rintro rfl
        exact hname hc
      exact PyDict.lookup_set_ne hne ..
    by_cases hrebind : ∃ name xs, c = .rebind name xs
    · obtain ⟨name', xs, rfl⟩ := hrebind
      have hne : name ≠ name' := by
        rintro rfl
        exact hname hc
      exact PyDict.lookup_set_ne hne ..
    push Not at hassign hrebind
    have hcases := exec_mutate_cases (m := m) hassign hrebind
    rcases hcases with ⟨a, -, hexec⟩ | ⟨-, hexec⟩
    · rw [hexec]
    · rw [hexec]

theorem fresh_run (log : List Command) : m.fresh ≤ (m.run log).fresh := by
  induction log generalizing m with
  | nil => exact le_rfl
  | cons c log ih =>
    have hstep : m.fresh ≤ (m.exec c).fresh := by
      by_cases hassign : ∃ name v, c = .assign name v
      · obtain ⟨name, v, rfl⟩ := hassign
        exact le_rfl
      by_cases hrebind : ∃ name xs, c = .rebind name xs
      · obtain ⟨name, xs, rfl⟩ := hrebind
        exact Nat.le_add_right ..
      push Not at hassign hrebind
      have hcases := exec_mutate_cases (m := m) hassign hrebind
      rcases hcases with ⟨a, -, hexec⟩ | ⟨-, hexec⟩
      · rw [hexec]
      · rw [hexec]
    exact hstep.trans ih

theorem configNames_upper : ∀ name ∈ configNames, isUpper name = true := by decide +kernel

/-- What an exception leaves behind. -/
theorem rolled_back (h : m.Ok) {log : List Command}
    (hlog : ∀ c ∈ log, c.Typed clearedContainers) :
    let m' := (snapshot m).foldl restore (m.run log)
    (∀ name, m'.globals.lookup name = m.globals.lookup name) ∧
      ∀ name a, isUpper name = true → m.globals.lookup name = some (.ref a) →
        m'.heap a = m.heap a := by
  intro m'
  have hnodup : ((m.globals.filter fun e => isUpper e.1).map Prod.fst).Nodup :=
    (List.filter_sublist.map Prod.fst).nodup h.nodup
  constructor
  · intro name
    have hlookup := lookup_restored (m := m.run log) m.heap _ hnodup name
    refine hlookup.trans ?_
    rw [lookup_filter]
    by_cases hconfig : name ∈ configNames
    · rw [if_pos (configNames_upper name hconfig)]
      cases hbound : m.globals.lookup name with
      | none => exact absurd hbound (h.bound name hconfig)
      | some v => rfl
    · have hscalar : name ∉ scalarNames := fun hmem => hconfig (List.mem_append_right _ hmem)
      rw [lookup_run hlog hscalar]
      split_ifs with hupper
      · exact Option.or_self
      · rfl
  · intro name a hupper hlookup
    have hmem : (name, Value.ref a) ∈ m.globals.filter fun e => isUpper e.1 := by
      obtain ⟨xs, ys, hsplit, -⟩ := List.lookup_eq_some_iff.mp hlookup
      rw [hsplit, List.filter_append, List.filter_cons, if_pos hupper]
      exact List.mem_append_right _ List.mem_cons_self
    have hcases := heap_restored (m := m.run log) m.heap
      (m.globals.filter fun e => isUpper e.1) a
    rcases hcases with ⟨hnone, -⟩ | ⟨-, hheap⟩
    · exact absurd rfl (hnone _ hmem)
    · exact hheap

theorem ok_rolled_back (h : m.Ok) {log : List Command}
    (hlog : ∀ c ∈ log, c.Typed clearedContainers) :
    Module.Ok ((snapshot m).foldl restore (m.run log)) := by
  obtain ⟨hlookup, hheap⟩ := rolled_back h hlog
  constructor
  case nodup => exact nodup_restored _ (ok_run h hlog).nodup
  case bound =>
    intro name hname
    rw [hlookup]
    exact h.bound name hname
  case containers =>
    intro name hname
    obtain ⟨a, hold, hkind⟩ := h.containers name hname
    have hupper := configNames_upper name (List.mem_append_left _ hname)
    refine ⟨a, (hlookup name).trans hold, ?_⟩
    rw [hheap name a hupper hold]
    exact hkind
  case apart =>
    intro name name' a h₁ h₂
    rw [hlookup] at h₁ h₂
    exact h.apart name name' a h₁ h₂
  case fresh =>
    intro name a hname
    rw [hlookup] at hname
    rw [fresh_restored]
    exact (h.fresh name a hname).trans_le (fresh_run log)

end Rollback

section Apply

variable (lib : Library) (required : List String)

/-- Every state that `apply_toml_config` leaves behind is one that it starts from. -/
theorem ok_apply (cfg : Toml) {m : Module} (h : m.Ok) :
    (applyTomlConfig lib required cfg m).2.Ok := by
  have htyped := (complete_inPlace lib required cfg).typed
  unfold applyTomlConfig
  generalize applyTomlConfigInPlace lib required cfg = w at htyped
  dsimp only
  cases w.result with
  | ok a => exact ok_run h htyped
  | error e => exact ok_rolled_back h htyped

/-- Every upper-case global, those of the configuration among them, is bound as before, and
its container has the content that it had. -/
def Restored (m m' : Module) : Prop :=
  ∀ name, isUpper name = true ∨ name ∈ configNames →
    m'.globals.lookup name = m.globals.lookup name ∧
      ∀ a, m.globals.lookup name = some (.ref a) → m'.heap a = m.heap a

/-- An exception leaves every global and the content of every container as they were. A
configuration that is accepted is accepted in any other state, every global shows the
same there, and the containers are the objects that they were. -/
theorem apply_all_or_nothing (cfg : Toml) (m : Module) (h : m.Ok) :
    (∀ e m', applyTomlConfig lib required cfg m = (.error e, m') → Restored m m') ∧
    ∀ m', applyTomlConfig lib required cfg m = (.ok (), m') →
      (∀ name ∈ clearedContainers, m'.globals.lookup name = m.globals.lookup name) ∧
      ∀ k : Module, k.Ok → ∃ k', applyTomlConfig lib required cfg k = (.ok (), k') ∧
        ∀ name ∈ configNames, k'.view name = m'.view name := by
  have hsets := complete_inPlace lib required cfg
  unfold applyTomlConfig
  generalize applyTomlConfigInPlace lib required cfg = w at hsets
  dsimp only
  cases hresult : w.result with
  | error e =>
    refine ⟨?_, fun m' happly => absurd (congrArg Prod.fst happly) nofun⟩
    intro e' m' happly name hname
    obtain ⟨hlookup, hheap⟩ := rolled_back h hsets.typed
    have hupper : isUpper name = true := hname.elim id (configNames_upper name)
    rw [← (Prod.mk.inj happly).2]
    exact ⟨hlookup name, fun a => hheap name a hupper⟩
  | ok a =>
    refine ⟨fun e m' happly => absurd (congrArg Prod.fst happly) nofun, ?_⟩
    intro m' happly
    rw [← (Prod.mk.inj happly).2]
    constructor
    · exact fun name hname => lookup_run hsets.typed (cleared_not_scalar name hname)
    · refine fun k hk => ⟨k.run w.log, rfl, fun name hname => ?_⟩
      have hinit := hsets.initialised a hresult name hname
      exact agree_run hk h hsets.typed (Or.inr hinit)

/-! The import leaves such a state. -/

/-- A library that knows no texts. -/
def plainLibrary : Library :=
  ⟨.finite, fun _ => none, fun _ => none, fun _ => "", id, fun _ => none, fun _ => none,
    fun _ => none⟩

def importedNames : List String := clearedContainers ++ "ABUSEIPDB_SOURCES" ::
  ((importedSettings plainLibrary).map Prod.fst ++
    (defaultLimits.map Prod.fst ++ mapPaths.map Prod.fst))

theorem importedNames_nodup : importedNames.Nodup := by decide +kernel

theorem configNames_imported : ∀ name ∈ configNames, name ∈ importedNames := by decide +kernel

theorem declared_names : (declared lib).globals.map Prod.fst = importedNames := by
  have hcleared : (clearedContainers.zipIdx.map fun e => (e.1, Value.ref e.2)).map Prod.fst =
      clearedContainers := rfl
  have hscalars : ((importedScalars lib).map fun e => (e.1, Value.scalar e.2)).map Prod.fst =
      (importedSettings lib).map Prod.fst ++
        (defaultLimits.map Prod.fst ++ mapPaths.map Prod.fst) := rfl
  rw [declared, List.map_append, List.map_append, hcleared, hscalars, importedNames]
  rfl

/-- The containers are numbered in their order. -/
theorem declared_lookup (name : String) : (declared lib).globals.lookup name =
    ((clearedContainers.zipIdx.lookup name).map Value.ref).or
      (if name = "ABUSEIPDB_SOURCES" then some (.ref 24)
        else ((importedScalars lib).lookup name).map Value.scalar) := by
  have hcleared := PyDict.lookup_map Value.ref name clearedContainers.zipIdx
  have hscalars := PyDict.lookup_map Value.scalar name (importedScalars lib)
  rw [declared, List.append_assoc, List.lookup_append, hcleared]
  apply congrArg
  by_cases hsources : name = "ABUSEIPDB_SOURCES"
  · subst hsources
    rw [if_pos rfl]
    exact List.lookup_cons_self
  · rw [if_neg hsources, ← hscalars]
    exact PyDict.lookup_cons_ne hsources ..

theorem zipIdx_getD {name : String} {a : ℕ}
    (h : clearedContainers.zipIdx.lookup name = some a) :
    a < 24 ∧ clearedContainers.getD a "" = name := by
  obtain ⟨xs, ys, hsplit, -⟩ := List.lookup_eq_some_iff.mp h
  have hmem : (name, a) ∈ clearedContainers.zipIdx := by
    rw [hsplit]
    exact List.mem_append_right _ List.mem_cons_self
  obtain ⟨ha, hname⟩ := List.mem_zipIdx' hmem
  exact ⟨ha, by rw [hname, List.getD_eq_getElem _ _ ha]⟩

/-- The only names of a container. -/
theorem declared_ref {name : String} {a : ℕ} (h : (declared lib).globals.lookup name =
    some (.ref a)) : a < 24 ∧ clearedContainers.getD a "" = name ∨
      a = 24 ∧ name = "ABUSEIPDB_SOURCES" := by
  rw [declared_lookup] at h
  cases hcleared : clearedContainers.zipIdx.lookup name with
  | some i =>
    rw [hcleared] at h
    cases h
    exact Or.inl (zipIdx_getD hcleared)
  | none =>
    rw [hcleared, Option.map_none, Option.none_or] at h
    split_ifs at h with hsources
    · cases h
      exact Or.inr ⟨rfl, hsources⟩
    · cases hscalar : (importedScalars lib).lookup name with
      | none =>
        rw [hscalar] at h
        exact absurd h nofun
      | some v =>
        rw [hscalar] at h
        exact absurd h nofun

theorem declared_ok : (declared lib).Ok := by
  constructor
  case nodup =>
    rw [declared_names]
    exact importedNames_nodup
  case bound =>
    intro name hname hnone
    have hmem := configNames_imported name hname
    rw [← declared_names lib] at hmem
    obtain ⟨e, he, rfl⟩ := List.mem_map.mp hmem
    have hne := List.lookup_eq_none_iff.mp hnone e he
    rw [bne_self_eq_false] at hne
    exact Bool.false_ne_true hne
  case containers =>
    intro name hname
    have hindex : ∀ name ∈ clearedContainers,
        (clearedContainers.zipIdx.lookup name).isSome = true := by decide +kernel
    obtain ⟨a, ha⟩ := Option.isSome_iff_exists.mp (hindex name hname)
    obtain ⟨hlt, hget⟩ := zipIdx_getD ha
    refine ⟨a, ?_, ?_⟩
    · rw [declared_lookup, ha]
      rfl
    · have hne : a ≠ 24 := hlt.ne
      rw [declared]
      dsimp only
      rw [if_neg hne, hget]
      cases kindOf name with
      | dict | list | set => rfl
  case apart =>
    intro name name' a h h'
    rcases declared_ref lib h with ⟨hlt, hname⟩ | ⟨ha, hname⟩
    · rcases declared_ref lib h' with ⟨-, hname'⟩ | ⟨ha', -⟩
      · exact hname.symm.trans hname'
      · exact absurd ha' hlt.ne
    · rcases declared_ref lib h' with ⟨hlt', -⟩ | ⟨-, hname'⟩
      · exact absurd ha hlt'.ne
      · exact hname.trans hname'.symm
  case fresh =>
    intro name a h
    have hfresh : (declared lib).fresh = 25 := rfl
    rw [hfresh]
    rcases declared_ref lib h with ⟨hlt, -⟩ | ⟨ha, -⟩
    · omega
    · omega

theorem imported_ok : (imported lib required).Ok := by
  apply ok_run (declared_ok lib)
  intro c hc
  have hwithin := (sets_setBpfPinDir required _).typed c hc
  exact within_mono (fun _ hn => absurd hn List.not_mem_nil) (by decide +kernel) hwithin

end Apply

/-- The module after a configuration whose only setting is the permanent TCP port 22. -/
def sshModule : Module :=
  (applyTomlConfig plainLibrary ["prog"] (.dict [("permanent_ports", .dict [("tcp",
    .list [.int 22])])]) (imported plainLibrary ["prog"])).2

theorem sshModule_ok : sshModule.Ok :=
  ok_apply plainLibrary ["prog"] _ (imported_ok plainLibrary ["prog"])

set_option maxRecDepth 8000 in
/-- The next configuration clears the port and enters another before its `acl` section, which
raises: its only rule is no table. -/
theorem apply_acl_int :
    let cfg := .dict [("permanent_ports", .dict [("tcp", .list [.int 80])]),
      ("acl", .list [.int 1])]
    sshModule.view "TCP_PERMANENT" = some (.content (.dict [(.int 22, .str "config")])) ∧
    (∃ pre post, (applyTomlConfigInPlace plainLibrary ["prog"] cfg).log =
      pre ++ .setItem "TCP_PERMANENT" (.int 80) (.str "config") :: post) ∧
    ∃ m', applyTomlConfig plainLibrary ["prog"] cfg sshModule = (.error .typeError, m') ∧
      Restored sshModule m' := by
  intro cfg
  have happly := apply_all_or_nothing plainLibrary ["prog"] cfg sshModule sshModule_ok
  refine ⟨rfl, ?_, _, rfl, happly.1 .typeError _ rfl⟩
  exact ⟨_, [], rfl⟩

end AutoXdp.TomlConfig
