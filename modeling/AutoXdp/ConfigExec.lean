import AutoXdp.ConfigModule
import Mathlib.Tactic.Basic

/-! What the writes of a configuration change, in any state of the module. -/
namespace AutoXdp.TomlConfig

/-! What one write changes. -/

/-- A module state: the containers are there, and each has one name. -/
structure Module.Ok (m : Module) : Prop where
  nodup : (m.globals.map Prod.fst).Nodup
  bound : ∀ name ∈ configNames, m.globals.lookup name ≠ none
  containers : ∀ name ∈ clearedContainers, ∃ a, m.globals.lookup name = some (.ref a) ∧
    (m.heap a).kind = kindOf name
  apart : ∀ name name' a, m.globals.lookup name = some (.ref a) →
    m.globals.lookup name' = some (.ref a) → name = name'
  fresh : ∀ name a, m.globals.lookup name = some (.ref a) → a < m.fresh

/-- What a reader of a global sees. -/
inductive View where
  | scalar (v : Scalar)
  | content (c : Content)

def Value.seen (heap : ℕ → Content) : Value → View
  | .scalar v => .scalar v
  | .ref a => .content (heap a)

def Module.view (m : Module) (name : String) : Option View :=
  (m.globals.lookup name).map (Value.seen m.heap)

/-- A write as its own global sees it. -/
def Command.viewStep (c : Command) (view : Option View) : Option View :=
  match c, view with
  | .assign _ v, _ => some (.scalar v)
  | .rebind _ xs, _ => some (.content (.list xs))
  | c, some (.content x) => some (.content (c.mutate x))
  | _, view => view

/-- The write binds one of `names` anew, or mutates one of `containers`. -/
def Command.Within (containers names : List String) : Command → Prop
  | .assign name _ | .rebind name _ => name ∈ names
  | c => c.name ∈ containers

/-- The writes go to globals of the configuration, and mutate only containers of a list. -/
def Command.Typed (containers : List String) (c : Command) : Prop :=
  c.Within containers scalarNames

/-- Behind this write a global does not show what it was. -/
def Command.initialises : Command → Bool
  | .clear _ | .assign .. | .rebind .. => true
  | _ => false

section Exec

variable {m : Module}

theorem exec_mutate {c : Command} (hassign : ∀ name v, c ≠ .assign name v)
    (hrebind : ∀ name xs, c ≠ .rebind name xs) :
    m.exec c = match m.globals.lookup c.name with
      | some (.ref a) => { m with heap := Function.update m.heap a (c.mutate (m.heap a)) }
      | _ => m := by
  cases c with
  | assign name v => exact absurd rfl (hassign name v)
  | rebind name xs => exact absurd rfl (hrebind name xs)
  | clear | setItem | append | add => rfl

/-- A write that mutates: what is found under the name changes, and nothing else. -/
theorem exec_mutate_cases {c : Command} (hassign : ∀ name v, c ≠ .assign name v)
    (hrebind : ∀ name xs, c ≠ .rebind name xs) :
    (∃ a, m.globals.lookup c.name = some (.ref a) ∧
      m.exec c = { m with heap := Function.update m.heap a (c.mutate (m.heap a)) }) ∨
    (∀ a, m.globals.lookup c.name ≠ some (.ref a)) ∧ m.exec c = m := by
  rw [exec_mutate hassign hrebind]
  cases hname : m.globals.lookup c.name with
  | none => exact Or.inr ⟨nofun, rfl⟩
  | some v =>
    cases v with
    | scalar v => exact Or.inr ⟨nofun, rfl⟩
    | ref a => exact Or.inl ⟨a, rfl, rfl⟩

theorem viewStep_mutate {c : Command} (hassign : ∀ name v, c ≠ .assign name v)
    (hrebind : ∀ name xs, c ≠ .rebind name xs) (view : Option View) :
    c.viewStep view = match view with
      | some (.content x) => some (.content (c.mutate x))
      | view => view := by
  cases c with
  | assign name v => exact absurd rfl (hassign name v)
  | rebind name xs => exact absurd rfl (hrebind name xs)
  | clear | setItem | append | add =>
    cases view with
    | none => rfl
    | some v => cases v with
      | scalar | content => rfl

theorem mutate_kind (c : Command) (x : Content) : (c.mutate x).kind = x.kind := by
  cases c with
  | clear => cases x with
    | dict | list | set => rfl
  | setItem | append | add | assign | rebind => cases x with
    | dict | list | set => rfl

theorem seen_update_self (heap : ℕ → Content) (a : ℕ) (x : Content) :
    Value.seen (Function.update heap a x) (.ref a) = .content x :=
  congrArg View.content (Function.update_self ..)

/-- A container that is not `a`. -/
theorem map_seen_update (heap : ℕ → Content) {a : ℕ} (x : Content) {v : Option Value}
    (h : v ≠ some (.ref a)) :
    v.map (Value.seen (Function.update heap a x)) = v.map (Value.seen heap) := by
  cases v with
  | none => rfl
  | some v =>
    cases v with
    | scalar v => rfl
    | ref a' =>
      have hne : a' ≠ a := by
        rintro rfl
        exact h rfl
      exact congrArg (fun x => some (View.content x)) (Function.update_of_ne hne ..)

theorem view_exec_self (c : Command) : (m.exec c).view c.name = c.viewStep (m.view c.name) := by
  by_cases hassign : ∃ name v, c = .assign name v
  · obtain ⟨name, v, rfl⟩ := hassign
    have hlookup := PyDict.lookup_set_self name (Value.scalar v) m.globals
    exact congrArg (Option.map _) hlookup
  by_cases hrebind : ∃ name xs, c = .rebind name xs
  · obtain ⟨name, xs, rfl⟩ := hrebind
    have hlookup := PyDict.lookup_set_self name (Value.ref m.fresh) m.globals
    have hseen := seen_update_self m.heap m.fresh (.list xs)
    exact (congrArg (Option.map _) hlookup).trans (congrArg some hseen)
  push Not at hassign hrebind
  rw [viewStep_mutate hassign hrebind]
  have hcases := exec_mutate_cases (m := m) hassign hrebind
  rcases hcases with ⟨a, hname, hexec⟩ | ⟨hname, hexec⟩
  · rw [hexec, Module.view, Module.view, hname, Option.map_some, Option.map_some,
      seen_update_self]
    rfl
  · rw [hexec, Module.view]
    cases hlookup : m.globals.lookup c.name with
    | none => rfl
    | some v =>
      cases v with
      | scalar v => rfl
      | ref a => exact absurd hlookup (hname a)

/-- The other globals do not see it. -/
theorem view_exec_ne (h : m.Ok) (c : Command) {name : String} (hne : name ≠ c.name) :
    (m.exec c).view name = m.view name := by
  by_cases hassign : ∃ name v, c = .assign name v
  · obtain ⟨name', v, rfl⟩ := hassign
    exact congrArg (Option.map _) (PyDict.lookup_set_ne hne (Value.scalar v) m.globals)
  by_cases hrebind : ∃ name xs, c = .rebind name xs
  · obtain ⟨name', xs, rfl⟩ := hrebind
    have hlookup := PyDict.lookup_set_ne hne (Value.ref m.fresh) m.globals
    have hold : m.globals.lookup name ≠ some (.ref m.fresh) :=
      fun hfresh => absurd (h.fresh name m.fresh hfresh) (Nat.lt_irrefl _)
    exact (congrArg (Option.map _) hlookup).trans (map_seen_update m.heap (.list xs) hold)
  push Not at hassign hrebind
  have hcases := exec_mutate_cases (m := m) hassign hrebind
  rcases hcases with ⟨a, hname, hexec⟩ | ⟨hname, hexec⟩
  · have hother : m.globals.lookup name ≠ some (.ref a) :=
      fun hlookup => hne (h.apart name c.name a hlookup hname)
    rw [hexec]
    exact map_seen_update m.heap _ hother
  · rw [hexec]

theorem clear_of_kind {x y : Content} (h : x.kind = y.kind) : x.clear = y.clear := by
  cases x with
  | dict | list | set => cases y with
    | dict | list | set => first | rfl | exact absurd h nofun

end Exec

/-! A run of writes. -/

section Run

variable {m k : Module}

theorem cleared_not_scalar : ∀ name ∈ clearedContainers, name ∉ scalarNames := by decide +kernel

theorem ok_exec (h : m.Ok) {c : Command} (hc : c.Typed clearedContainers) : (m.exec c).Ok := by
  -- Where no name is bound anew, the containers only change their content.
  have hheap (a : ℕ) (x : Content) (hx : x.kind = (m.heap a).kind) :
      Module.Ok { m with heap := Function.update m.heap a x } := by
    refine ⟨h.nodup, h.bound, ?_, h.apart, h.fresh⟩
    intro name hname
    obtain ⟨a', hlookup, hkind⟩ := h.containers name hname
    refine ⟨a', hlookup, ?_⟩
    by_cases ha : a' = a
    · subst ha
      exact (congrArg Content.kind (Function.update_self ..)).trans (hx.trans hkind)
    · exact (congrArg Content.kind (Function.update_of_ne ha ..)).trans hkind
  by_cases hassign : ∃ name v, c = .assign name v
  · obtain ⟨name, v, rfl⟩ := hassign
    have hlookup {name' : String} {a : ℕ}
        (hname : (PyDict.set name (Value.scalar v) m.globals).lookup name' = some (.ref a)) :
        m.globals.lookup name' = some (.ref a) := by
      by_cases heq : name' = name
      · subst heq
        rw [PyDict.lookup_set_self] at hname
        exact absurd hname nofun
      · rw [PyDict.lookup_set_ne heq] at hname
        exact hname
    refine ⟨PyDict.nodup_set h.nodup, ?_, ?_, ?_, fun name' a hname => ?_⟩
    · intro name' hname
      by_cases heq : name' = name
      · subst heq
        rw [Module.exec, PyDict.lookup_set_self]
        exact nofun
      · rw [Module.exec, PyDict.lookup_set_ne heq]
        exact h.bound name' hname
    · intro name' hname
      have heq : name' ≠ name := by
        rintro rfl
        exact cleared_not_scalar name' hname hc
      rw [Module.exec, PyDict.lookup_set_ne heq]
      exact h.containers name' hname
    · exact fun name₁ name₂ a h₁ h₂ => h.apart name₁ name₂ a (hlookup h₁) (hlookup h₂)
    · exact h.fresh name' a (hlookup hname)
  by_cases hrebind : ∃ name xs, c = .rebind name xs
  · obtain ⟨name, xs, rfl⟩ := hrebind
    have hlookup {name' : String} {a : ℕ}
        (hname : (PyDict.set name (Value.ref m.fresh) m.globals).lookup name' =
          some (.ref a)) :
        name' = name ∧ a = m.fresh ∨ a < m.fresh ∧ m.globals.lookup name' = some (.ref a) := by
      by_cases heq : name' = name
      · subst heq
        rw [PyDict.lookup_set_self] at hname
        cases hname
        exact Or.inl ⟨rfl, rfl⟩
      · rw [PyDict.lookup_set_ne heq] at hname
        exact Or.inr ⟨h.fresh name' a hname, hname⟩
    refine ⟨PyDict.nodup_set h.nodup, ?_, ?_, ?_, fun name' a hname => ?_⟩
    · intro name' hname
      by_cases heq : name' = name
      · subst heq
        rw [Module.exec, PyDict.lookup_set_self]
        exact nofun
      · rw [Module.exec, PyDict.lookup_set_ne heq]
        exact h.bound name' hname
    · intro name' hname
      have heq : name' ≠ name := by
        rintro rfl
        exact cleared_not_scalar name' hname hc
      obtain ⟨a, hold, hkind⟩ := h.containers name' hname
      have hne : a ≠ m.fresh := (h.fresh name' a hold).ne
      rw [Module.exec, PyDict.lookup_set_ne heq]
      exact ⟨a, hold, (congrArg Content.kind (Function.update_of_ne hne ..)).trans hkind⟩
    · intro name₁ name₂ a h₁ h₂
      rcases hlookup h₁ with ⟨rfl, rfl⟩ | ⟨hlt, hold₁⟩
      · rcases hlookup h₂ with ⟨rfl, -⟩ | ⟨hlt, -⟩
        · rfl
        · exact absurd hlt (Nat.lt_irrefl _)
      · rcases hlookup h₂ with ⟨-, rfl⟩ | ⟨-, hold₂⟩
        · exact absurd hlt (Nat.lt_irrefl _)
        · exact h.apart name₁ name₂ a hold₁ hold₂
    · rcases hlookup hname with ⟨-, rfl⟩ | ⟨hlt, -⟩
      · exact Nat.lt_add_one m.fresh
      · exact Nat.lt_add_right 1 hlt
  push Not at hassign hrebind
  have hcases := exec_mutate_cases (m := m) hassign hrebind
  rcases hcases with ⟨a, hname, hexec⟩ | ⟨hname, hexec⟩
  · rw [hexec]
    exact hheap a _ (mutate_kind c (m.heap a))
  · rw [hexec]
    exact h

theorem ok_run (h : m.Ok) {log : List Command} (hlog : ∀ c ∈ log, c.Typed clearedContainers) :
    (m.run log).Ok := by
  induction log generalizing m with
  | nil => exact h
  | cons c log ih =>
    obtain ⟨hc, hlog⟩ := List.forall_mem_cons.mp hlog
    exact ih (ok_exec h hc) hlog

/-- Behind a write two module states agree where they agreed before, and where the write
initialises. -/
theorem agree_exec (hm : m.Ok) (hk : k.Ok) {c : Command} (hc : c.Typed clearedContainers)
    {name : String} (h : m.view name = k.view name ∨ c.initialises = true ∧ c.name = name) :
    (m.exec c).view name = (k.exec c).view name := by
  by_cases hne : name = c.name
  swap
  · have hagree := h.resolve_right fun hinit => hne hinit.2.symm
    rw [view_exec_ne hm c hne, view_exec_ne hk c hne, hagree]
  subst hne
  rw [view_exec_self, view_exec_self]
  rcases h with h | ⟨hinit, -⟩
  · rw [h]
  cases c with
  | assign | rebind => rfl
  | setItem | append | add => exact absurd hinit Bool.false_ne_true
  | clear name =>
    obtain ⟨a, hlookup, hkind⟩ := hm.containers name hc
    obtain ⟨a', hlookup', hkind'⟩ := hk.containers name hc
    have hcleared := clear_of_kind (hkind.trans hkind'.symm)
    rw [Command.name, Module.view, Module.view, hlookup, hlookup']
    exact congrArg (fun x => some (View.content x)) hcleared

theorem agree_run (hm : m.Ok) (hk : k.Ok) {log : List Command}
    (hlog : ∀ c ∈ log, c.Typed clearedContainers) {name : String}
    (h : m.view name = k.view name ∨ ∃ c ∈ log, c.initialises = true ∧ c.name = name) :
    (m.run log).view name = (k.run log).view name := by
  induction log generalizing m k with
  | nil => exact h.resolve_right (by rintro ⟨c, hc, -⟩; exact List.not_mem_nil hc)
  | cons c log ih =>
    obtain ⟨hc, hlog⟩ := List.forall_mem_cons.mp hlog
    apply ih (ok_exec hm hc) (ok_exec hk hc) hlog
    rcases h with h | ⟨c', hc', hinit⟩
    · exact Or.inl (agree_exec hm hk hc (Or.inl h))
    · rcases List.mem_cons.mp hc' with rfl | hc'
      · exact Or.inl (agree_exec hm hk hc (Or.inr hinit))
      · exact Or.inr ⟨c', hc', hinit⟩

end Run

end AutoXdp.TomlConfig
