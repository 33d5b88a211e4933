import AutoXdp.ConfigApply
import Mathlib.Data.List.Forall2
import Mathlib.Tactic.Basic

/-! The writes of a configuration that is accepted, section by section, and what is left of
them under one name. -/
namespace AutoXdp.TomlConfig

/-! Programs that end well. -/

section Done

variable {α β : Type}

/-- The program ends well, with these writes. -/
def Writes.Done (w : Writes Unit) (log : List Command) : Prop := w = ⟨log, .ok ()⟩

theorem done_seq {w u : Writes Unit} {log : List Command} :
    (do w; u).Done log ↔ ∃ l l', w.Done l ∧ u.Done l' ∧ log = l ++ l' := by
  obtain ⟨l, result⟩ := w
  cases result with
  | error e =>
    constructor
    · exact fun h => absurd (congrArg Writes.result h) nofun
    · rintro ⟨l₁, l₂, h, -⟩
      exact absurd (congrArg Writes.result h) nofun
  | ok a =>
    obtain ⟨l', result'⟩ := u
    constructor
    · intro h
      have hlog : l ++ l' = log := congrArg Writes.log h
      have hresult : result' = .ok () := congrArg Writes.result h
      exact ⟨l, l', rfl, congrArg (Writes.mk l') hresult, hlog.symm⟩
    · rintro ⟨l₁, l₂, h₁, h₂, rfl⟩
      cases h₁
      cases h₂
      rfl

theorem done_eval {e : Py α} {f : α → Writes Unit} {log : List Command} :
    (eval e >>= f).Done log ↔ ∃ a, e = .ok a ∧ (f a).Done log := by
  cases e with
  | error e =>
    constructor
    · exact fun h => absurd (congrArg Writes.result h) nofun
    · rintro ⟨a, h, -⟩
      exact absurd h nofun
  | ok a =>
    constructor
    · exact fun h => ⟨a, rfl, h⟩
    · rintro ⟨b, h, hdone⟩
      cases h
      exact hdone

theorem done_write {c : Command} {log : List Command} : (write c).Done log ↔ log = [c] := by
  constructor
  · exact fun h => (congrArg Writes.log h).symm
  · rintro rfl
    rfl

/-- A loop whose bodies write one command each. -/
theorem done_forM {xs : List α} {f : α → Writes Unit} {R : α → Command → Prop}
    (hf : ∀ x log, (f x).Done log ↔ ∃ c, R x c ∧ log = [c]) {log : List Command} :
    (xs.forM f).Done log ↔ List.Forall₂ R xs log := by
  induction xs generalizing log with
  | nil =>
    rw [List.forall₂_nil_left_iff]
    constructor
    · exact fun h => (congrArg Writes.log h).symm
    · rintro rfl
      rfl
  | cons x xs ih =>
    rw [List.forall₂_cons_left_iff]
    refine done_seq.trans ?_
    constructor
    · rintro ⟨l, l', hx, hxs, rfl⟩
      obtain ⟨c, hc, rfl⟩ := (hf x l).mp hx
      exact ⟨c, l', hc, ih.mp hxs, rfl⟩
    · rintro ⟨c, l', hc, hxs, rfl⟩
      exact ⟨[c], l', (hf x [c]).mpr ⟨c, hc, rfl⟩, ih.mpr hxs, rfl⟩

end Done

/-! Loops that evaluate and write. -/

section Loops

variable {α β γ : Type}

theorem forall₂_exists {S : α → β → Prop} {g : β → γ} {xs : List α} {zs : List γ} :
    List.Forall₂ (fun x z => ∃ y, S x y ∧ z = g y) xs zs ↔
      ∃ ys, List.Forall₂ S xs ys ∧ zs = ys.map g := by
  induction xs generalizing zs with
  | nil =>
    rw [List.forall₂_nil_left_iff]
    constructor
    · rintro rfl
      exact ⟨[], .nil, rfl⟩
    · rintro ⟨ys, hys, rfl⟩
      rw [List.forall₂_nil_left_iff.mp hys, List.map_nil]
  | cons x xs ih =>
    rw [List.forall₂_cons_left_iff]
    constructor
    · rintro ⟨z, zs, ⟨y, hy, rfl⟩, hzs, rfl⟩
      obtain ⟨ys, hys, rfl⟩ := ih.mp hzs
      exact ⟨y :: ys, .cons hy hys, rfl⟩
    · rintro ⟨ys, hall, rfl⟩
      obtain ⟨y, ys, hy, hys, rfl⟩ := List.forall₂_cons_left_iff.mp hall
      exact ⟨g y, ys.map g, ⟨y, hy, rfl⟩, ih.mpr ⟨ys, hys, rfl⟩, rfl⟩

theorem bind_ok {e : Py α} {f : α → Py β} {b : β} :
    e >>= f = .ok b ↔ ∃ a, e = .ok a ∧ f a = .ok b := by
  cases e with
  | error e =>
    constructor
    · exact fun h => absurd h nofun
    · rintro ⟨a, h, -⟩
      exact absurd h nofun
  | ok a =>
    constructor
    · exact fun h => ⟨a, rfl, h⟩
    · rintro ⟨a', h, hb⟩
      cases h
      exact hb

theorem exists_forall₂ {S : α → β → Prop} {xs : List α} :
    (∃ ys, List.Forall₂ S xs ys) ↔ ∀ x ∈ xs, ∃ y, S x y := by
  induction xs with
  | nil => exact ⟨fun _ _ hx => absurd hx List.not_mem_nil, fun _ => ⟨[], .nil⟩⟩
  | cons x xs ih =>
    rw [List.forall_mem_cons, ← ih]
    constructor
    · rintro ⟨ys, hall⟩
      obtain ⟨y, ys, hy, hys, rfl⟩ := List.forall₂_cons_left_iff.mp hall
      exact ⟨⟨y, hy⟩, ys, hys⟩
    · rintro ⟨⟨y, hy⟩, ys, hys⟩
      exact ⟨y :: ys, .cons hy hys⟩

theorem mapM_ok {f : α → Py β} {xs : List α} {ys : List β} :
    xs.mapM f = .ok ys ↔ List.Forall₂ (fun x y => f x = .ok y) xs ys := by
  induction xs generalizing ys with
  | nil =>
    rw [List.mapM_nil, List.forall₂_nil_left_iff]
    constructor
    · exact fun h => (Except.ok.inj h).symm
    · rintro rfl
      rfl
  | cons x xs ih =>
    rw [List.mapM_cons, List.forall₂_cons_left_iff]
    constructor
    · intro h
      obtain ⟨y, hx, h⟩ := bind_ok.mp h
      obtain ⟨zs, hxs, h⟩ := bind_ok.mp h
      exact ⟨y, zs, hx, ih.mp hxs, (Except.ok.inj h).symm⟩
    · rintro ⟨y, zs, hx, hxs, rfl⟩
      exact bind_ok.mpr ⟨y, hx, bind_ok.mpr ⟨zs, ih.mpr hxs, rfl⟩⟩

/-- A row of items that are set. -/
theorem mutate_items (name : String) (items es : List (Key × Item)) :
    (items.map fun e => Command.setItem name e.1 e.2).foldl
      (fun x c => c.mutate x) (.dict es) =
      .dict (items.foldl (fun es e => PyDict.set e.1 e.2 es) es) := by
  induction items generalizing es with
  | nil => rfl
  | cons e items ih => exact ih _

end Loops

/-! One name. -/

section Name

variable {m : Module} {containers names : List String} {target : String}

/-- The writes under a name. -/
def under (name : String) (log : List Command) : List Command :=
  log.filter fun c => c.name = name

theorem under_append (name : String) (l l' : List Command) :
    under name (l ++ l') = under name l ++ under name l' := List.filter_append ..

theorem view_run (h : m.Ok) {log : List Command} (hlog : ∀ c ∈ log, c.Typed clearedContainers)
    (name : String) : (m.run log).view name =
      (under name log).foldl (fun view c => c.viewStep view) (m.view name) := by
  induction log generalizing m with
  | nil => rfl
  | cons c log ih =>
    obtain ⟨hc, hlog⟩ := List.forall_mem_cons.mp hlog
    refine (ih (ok_exec h hc) hlog).trans ?_
    rw [under, under, List.filter_cons]
    split_ifs with hname
    · have heq : c.name = name := of_decide_eq_true hname
      subst heq
      rw [List.foldl_cons, view_exec_self]
    · have hne : name ≠ c.name := fun heq => hname (decide_eq_true heq.symm)
      rw [view_exec_ne h c hne]

theorem name_of_within {c : Command} (hc : c.Within containers names) :
    c.name ∈ containers ∨ c.name ∈ names := by
  cases c with
  | assign | rebind => exact Or.inr hc
  | clear | setItem | append | add => exact Or.inl hc

/-- A section leaves the globals alone that are not its own. -/
theorem under_within {log : List Command} (hlog : ∀ c ∈ log, c.Within containers names)
    (hcontainer : target ∉ containers) (hname : target ∉ names) : under target log = [] := by
  rw [under, List.filter_eq_nil_iff]
  intro c hc htarget
  have heq : c.name = target := of_decide_eq_true htarget
  rcases name_of_within (hlog c hc) with hmem | hmem
  · exact hcontainer (heq ▸ hmem)
  · exact hname (heq ▸ hmem)

theorem under_other {log : List Command} (hlog : ∀ c ∈ log, c.name = target) {name : String}
    (hne : name ≠ target) : under name log = [] := by
  rw [under, List.filter_eq_nil_iff]
  intro c hc hname
  exact hne ((of_decide_eq_true hname).symm.trans (hlog c hc))

theorem under_self {log : List Command} (hlog : ∀ c ∈ log, c.name = target) :
    under target log = log :=
  List.filter_eq_self.mpr fun c hc => decide_eq_true (hlog c hc)

/-- The command goes to a container. -/
def Command.mutates : Command → Bool
  | .assign .. | .rebind .. => false
  | _ => true

theorem foldl_viewStep {log : List Command} (hlog : ∀ c ∈ log, c.mutates = true) (x : Content) :
    log.foldl (fun view c => c.viewStep view) (some (.content x)) =
      some (.content (log.foldl (fun x c => c.mutate x) x)) := by
  induction log generalizing x with
  | nil => rfl
  | cons c log ih =>
    obtain ⟨hc, hlog⟩ := List.forall_mem_cons.mp hlog
    rw [List.foldl_cons, List.foldl_cons, ← ih hlog]
    cases c with
    | assign | rebind => exact absurd hc Bool.false_ne_true
    | clear | setItem | append | add => rfl

theorem clear_empty {x : Content} {kind : Kind} (h : x.kind = kind) :
    x.clear = emptyOf kind := by
  subst h
  cases x with
  | dict | list | set => rfl

/-- The writes in the middle are the only ones to a container, behind its clearing. -/
theorem view_target (h : m.Ok) {before s after : List Command}
    (htyped : ∀ c ∈ before ++ s ++ after, c.Typed clearedContainers)
    (htarget : target ∈ clearedContainers) (hbefore : under target before = [.clear target])
    (hs : ∀ c ∈ s, c.name = target ∧ c.mutates = true) (hafter : under target after = []) :
    (m.run (before ++ s ++ after)).view target =
      some (.content (s.foldl (fun x c => c.mutate x) (emptyOf (kindOf target)))) := by
  obtain ⟨a, hlookup, hkind⟩ := h.containers target htarget
  have hview : m.view target = some (.content (m.heap a)) :=
    congrArg (Option.map (Value.seen m.heap)) hlookup
  rw [view_run h htyped, under_append, under_append, hbefore, hafter, List.append_nil,
    under_self fun c hc => (hs c hc).1, List.foldl_append, hview, List.foldl_cons,
    List.foldl_nil]
  have hcleared : Command.viewStep (.clear target) (some (.content (m.heap a))) =
      some (.content (m.heap a).clear) := rfl
  rw [hcleared, clear_empty hkind]
  exact foldl_viewStep (fun c hc => (hs c hc).2) _

/-- Where only these writes are others, no other name shows it. -/
theorem view_other (h : m.Ok) {before s s' after : List Command}
    (htyped : ∀ c ∈ before ++ s ++ after, c.Typed clearedContainers)
    (htyped' : ∀ c ∈ before ++ s' ++ after, c.Typed clearedContainers)
    (hs : ∀ c ∈ s, c.name = target) (hs' : ∀ c ∈ s', c.name = target) {name : String}
    (hne : name ≠ target) :
    (m.run (before ++ s' ++ after)).view name = (m.run (before ++ s ++ after)).view name := by
  rw [view_run h htyped, view_run h htyped', under_append, under_append, under_append,
    under_append, under_other hs hne, under_other hs' hne]

end Name

end AutoXdp.TomlConfig
