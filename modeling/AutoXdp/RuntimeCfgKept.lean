import AutoXdp.RuntimeCfgRace
import Mathlib.Tactic.Basic
import Mathlib.Tactic.Tauto

/-! No update of the runtime configuration is lost in a run without clashes. -/
namespace AutoXdp
open AtomicProg GuardedRun BpfRiskMaps XdpBackend

namespace RuntimeCfgRace

variable {cfg : Config} {desired : DesiredState} {r : Request}

/-- The bit does not meet the daemon's flags. -/
theorem withActive_flags (active : Bool) (x : XdpRuntimeCfg) :
    (withActive active x).cfgFlags &&& ownFlags = x.cfgFlags &&& ownFlags := by
  have hor : xdpCfgFlagAbuseipdbEnabled &&& ownFlags = 0 := by decide
  have hand : ~~~xdpCfgFlagAbuseipdbEnabled &&& ownFlags = ownFlags := by decide
  have hdistrib : (x.cfgFlags ||| xdpCfgFlagAbuseipdbEnabled) &&& ownFlags =
      (x.cfgFlags &&& ownFlags) ||| (xdpCfgFlagAbuseipdbEnabled &&& ownFlags) := by
    apply BitVec.eq_of_getLsbD_eq
    intro i _
    simp only [BitVec.getLsbD_and, BitVec.getLsbD_or]
    exact Bool.and_or_distrib_right ..
  cases active with
  | true =>
    change (x.cfgFlags ||| xdpCfgFlagAbuseipdbEnabled) &&& ownFlags = _
    rw [hdistrib, hor]
    exact BitVec.or_zero
  | false =>
    change (x.cfgFlags &&& ~~~xdpCfgFlagAbuseipdbEnabled) &&& ownFlags = _
    rw [BitVec.and_assoc, hand]

theorem agrees_withActive (active : Bool) (d x : XdpRuntimeCfg) :
    Agrees d (withActive active x) ↔ Agrees d x := by
  constructor
  · rintro ⟨htimings, hflags⟩
    rw [withActive_flags] at hflags
    exact ⟨htimings, hflags⟩
  · rintro ⟨htimings, hflags⟩
    refine ⟨htimings, ?_⟩
    rw [withActive_flags]
    exact hflags

theorem activeIn_wanted : activeIn (some (wanted cfg desired)) = cfg.abuseipdbEnabled := by
  rw [activeIn_eq, Option.getD_some]
  simp only [wanted, computeCfgFlags]
  cases cfg.abuseipdbEnabled <;> cases desired.bogonFilterEnabled <;>
    cases desired.dropEventsEnabled <;> cases cfg.slotDefaultDrop <;> rfl

/-- What holds of the values that the AbuseIPDB thread handles while the daemon is in one
part of its step: of what it reads (`view`), the flags it keeps (`flags`), what it packs
(`packs`), and of the entry before and after its update. -/
structure Era (active : Bool) where
  view : XdpRuntimeCfg → Prop
  flags : U32 → Prop
  packs : XdpRuntimeCfg → Prop
  unwritten : XdpRuntimeCfg → Prop
  written : XdpRuntimeCfg → Prop
  view_flags : ∀ raw, view raw → flags raw.cfgFlags
  flags_packs : ∀ f raw, flags f → view raw → packs (withActive active { raw with cfgFlags := f })
  packs_written : ∀ v, packs v → written v

/-- Before the daemon packs anything the entry is as it was, but for the bit. -/
def eraBefore (active : Bool) (entry₀ : XdpRuntimeCfg) : Era active where
  view raw := raw = entry₀
  flags f := f = entry₀.cfgFlags
  packs v := v = withActive active entry₀
  unwritten entry := entry = entry₀
  written entry := entry = withActive active entry₀
  view_flags := by rintro raw rfl; rfl
  flags_packs := by rintro f raw rfl rfl; rfl
  packs_written _ h := h

/-- While the daemon's value waits, what was read before may be stale. -/
def eraMidway (active : Bool) (entry₀ d : XdpRuntimeCfg) : Era active where
  view raw := raw = d
  flags f := Agrees d entry₀ → f &&& ownFlags = d.cfgFlags &&& ownFlags
  packs v := (Agrees d entry₀ → Agrees d v) ∧ activeIn (some v) = active
  unwritten entry := entry = entry₀
  written _ := True
  view_flags := by rintro raw rfl _; rfl
  flags_packs := by
    rintro f raw hf rfl
    refine ⟨fun h => ?_, activeIn_withActive ..⟩
    rw [agrees_withActive]
    exact ⟨rfl, hf h⟩
  packs_written _ _ := trivial

/-- Once the daemon has written, everything has its timings and flags. -/
def eraAfter (active : Bool) (d : XdpRuntimeCfg) : Era active where
  view raw := Agrees d raw
  flags f := f &&& ownFlags = d.cfgFlags &&& ownFlags
  packs v := Agrees d v ∧ activeIn (some v) = active
  unwritten entry := Agrees d entry
  written entry := Agrees d entry ∧ activeIn (some entry) = active
  view_flags _ h := h.flags
  flags_packs f raw hf hraw := by
    refine ⟨?_, activeIn_withActive ..⟩
    rw [agrees_withActive]
    exact ⟨hraw.timings, hf⟩
  packs_written _ h := h

def DaemonPhase.era (active : Bool) (entry₀ d : XdpRuntimeCfg) : DaemonPhase → Era active
  | .packed => eraMidway active entry₀ d
  | .wrote => eraAfter active d
  | _ => eraBefore active entry₀

/-- What the AbuseIPDB thread holds, and what it left. -/
def RequestPhase.Holds {active : Bool} (e : Era active) (s : CfgState) : RequestPhase → Prop
  | .looked => e.view s.val ∧ e.unwritten s.entry
  | .flagged f => e.flags f ∧ e.unwritten s.entry
  | .timed f => (e.flags f ∧ e.view s.val) ∧ e.unwritten s.entry
  | .both v => e.packs v ∧ e.unwritten s.entry
  | .packed => e.packs s.val ∧ e.unwritten s.entry
  | .wrote => e.written s.entry
  | _ => e.unwritten s.entry

/-- What the daemon holds. -/
def DaemonPhase.Holds (active : Bool) (entry₀ d : XdpRuntimeCfg) (s : CfgState) :
    DaemonPhase → Prop
  | .looked => s.val = entry₀ ∨ s.val = withActive active entry₀
  | .timed current => timings current = timings entry₀
  | .flagged current => timings current = timings entry₀ ∧
      (s.val = entry₀ ∨ s.val = withActive active entry₀)
  | .packed => s.val = d
  | .skipped => Agrees d entry₀
  | _ => True

def RequestPhase.IsPacked : RequestPhase → Prop
  | .packed => True
  | _ => False

/-- Flags read, and no update returned. -/
def RequestPhase.IsReading : RequestPhase → Prop
  | .flagged _ | .timed _ | .both _ | .packed => True
  | _ => False

def RequestPhase.IsWrote : RequestPhase → Prop
  | .wrote => True
  | _ => False

/-- The two threads and what each holds. -/
structure Safe (active : Bool) (entry₀ d : XdpRuntimeCfg) (p : DaemonPhase) (q : RequestPhase)
    (s : CfgState) : Prop where
  daemon : p.Holds active entry₀ d s
  request : q.Holds (p.era active entry₀ d) s

theorem holds_val {active : Bool} {e : Era active} {q : RequestPhase} {s s' : CfgState}
    (h : q.Holds e s) (hentry : s'.entry = s.entry) (hpacked : q.IsPacked → s'.val = s.val)
    (hview : e.unwritten s.entry → e.view s'.val) : q.Holds e s' := by
  cases q with
  | looked =>
    have hunwritten := h.2
    rw [← hentry] at hunwritten
    exact ⟨hview h.2, hunwritten⟩
  | timed f =>
    have hunwritten := h.2
    rw [← hentry] at hunwritten
    exact ⟨⟨h.1.1, hview h.2⟩, hunwritten⟩
  | packed =>
    obtain ⟨hpacks, hunwritten⟩ := h
    rw [← hpacked trivial] at hpacks
    rw [← hentry] at hunwritten
    exact ⟨hpacks, hunwritten⟩
  | wrote =>
    have hwritten : e.written s.entry := h
    rw [← hentry] at hwritten
    exact hwritten
  | first | firstLooked | begin | failed =>
    have hunwritten : e.unwritten s.entry := h
    rw [← hentry] at hunwritten
    exact hunwritten
  | flagged f | both v =>
    have hunwritten := h.2
    rw [← hentry] at hunwritten
    exact ⟨h.1, hunwritten⟩

theorem entry_before {active : Bool} {entry₀ : XdpRuntimeCfg} {q : RequestPhase} {s : CfgState}
    (h : q.Holds (eraBefore active entry₀) s) :
    s.entry = entry₀ ∨ s.entry = withActive active entry₀ := by
  cases q with
  | wrote => exact Or.inr h
  | looked | flagged f | timed f | both v | packed => exact Or.inl h.2
  | first | firstLooked | begin | failed => exact Or.inl h

/-- A lookup of the daemon before it packs. -/
theorem safe_look {active : Bool} {entry₀ : XdpRuntimeCfg} {q : RequestPhase} {s : CfgState}
    (h : q.Holds (eraBefore active entry₀) s) (hbuffer : q.IsPacked → s.entry = s.val) (n : ℕ) :
    (s.entry = entry₀ ∨ s.entry = withActive active entry₀) ∧
      q.Holds (eraBefore active entry₀) { s with val := s.entry, syscalls := n } :=
  ⟨entry_before h, holds_val h rfl hbuffer id⟩

theorem safe_pack {active : Bool} {entry₀ d : XdpRuntimeCfg} {q : RequestPhase} {s : CfgState}
    (h : q.Holds (eraBefore active entry₀) s) (hbuffer : q.IsPacked → d = s.val) :
    q.Holds (eraMidway active entry₀ d) { s with val := d } := by
  have hflags (f : U32) (hf : f = entry₀.cfgFlags) : (eraMidway active entry₀ d).flags f := by
    rw [hf]
    exact fun hagrees => hagrees.flags
  cases q with
  | looked => exact ⟨rfl, h.2⟩
  | flagged f => exact ⟨hflags f h.1, h.2⟩
  | timed f => exact ⟨⟨hflags f h.1.1, rfl⟩, h.2⟩
  | both v =>
    obtain ⟨rfl, hunwritten⟩ := h
    refine ⟨⟨fun hagrees => ?_, activeIn_withActive ..⟩, hunwritten⟩
    rw [agrees_withActive]
    exact hagrees
  | packed =>
    obtain ⟨hpacks, hunwritten⟩ := h
    refine ⟨⟨fun _ => ⟨rfl, rfl⟩, ?_⟩, hunwritten⟩
    rw [hbuffer trivial, show s.val = withActive active entry₀ from hpacks]
    exact activeIn_withActive ..
  | wrote => trivial
  | first | firstLooked | begin | failed => exact h

theorem safe_write {active : Bool} {entry₀ d : XdpRuntimeCfg} {q : RequestPhase} {s : CfgState}
    (hval : s.val = d) (h : q.Holds (eraMidway active entry₀ d) s)
    (hread : q.IsReading → Agrees d s.entry) (hbit : q.IsWrote → activeIn (some d) = active) (n : ℕ) :
    q.Holds (eraAfter active d) { s with entry := s.val, syscalls := n } := by
  have hnow : Agrees d s.val := by
    rw [hval]
    exact ⟨rfl, rfl⟩
  have hold (hunwritten : s.entry = entry₀) (hreading : q.IsReading) : Agrees d entry₀ := by
    rw [← hunwritten]
    exact hread hreading
  cases q with
  | looked => exact ⟨hnow, hnow⟩
  | flagged f => exact ⟨h.1 (hold h.2 trivial), hnow⟩
  | timed f => exact ⟨⟨h.1.1 (hold h.2 trivial), hnow⟩, hnow⟩
  | both v => exact ⟨⟨h.1.1 (hold h.2 trivial), h.1.2⟩, hnow⟩
  | packed => exact ⟨⟨hnow, h.1.2⟩, hnow⟩
  | wrote =>
    refine ⟨hnow, ?_⟩
    rw [hval]
    exact hbit trivial
  | first | firstLooked | begin | failed => exact hnow

/-- The other thread's part of `NoClash` for a step of the daemon. -/
structure DaemonSafe (active : Bool) (d : XdpRuntimeCfg) (p : DaemonPhase) (q : RequestPhase)
    (s s' : CfgState) : Prop where
  buffer : q.IsPacked → s'.val = s.val
  read : p = .packed → q.IsReading → Agrees d s.entry
  bit : p = .packed → q.IsWrote → activeIn (some d) = active

theorem safe_daemon (entry₀ : XdpRuntimeCfg) (p p' : DaemonPhase) (q : RequestPhase)
    (s s' : CfgState) (hmove : DaemonMove cfg desired p s p' s')
    (h : Safe r.active entry₀ (wanted cfg desired) p q s)
    (hsafe : DaemonSafe r.active (wanted cfg desired) p q s s') :
    p' = .failed ∨ Safe r.active entry₀ (wanted cfg desired) p' q s' := by
  obtain ⟨hdaemon, hrequest⟩ := h
  have hraw (x : XdpRuntimeCfg) (hx : x = entry₀ ∨ x = withActive r.active entry₀) :
      timings x = timings entry₀ ∧ x.cfgFlags &&& ownFlags = entry₀.cfgFlags &&& ownFlags := by
    rcases hx with rfl | rfl
    · exact ⟨rfl, rfl⟩
    · exact ⟨rfl, withActive_flags ..⟩
  cases hmove with
  | look =>
    obtain ⟨hentry, hholds⟩ := safe_look hrequest hsafe.buffer (s.syscalls + 1)
    exact Or.inr ⟨hentry, hholds⟩
  | time => exact Or.inr ⟨(hraw _ hdaemon).1, hrequest⟩
  | lookAgain current =>
    obtain ⟨hentry, hholds⟩ := safe_look hrequest hsafe.buffer (s.syscalls + 1)
    exact Or.inr ⟨⟨hdaemon, hentry⟩, hholds⟩
  | differ current => exact Or.inr ⟨trivial, hrequest⟩
  | same current _ htimings hflags =>
    refine Or.inr ⟨⟨hdaemon.1.symm.trans htimings, ?_⟩, hrequest⟩
    rw [← hflags]
    exact (hraw _ hdaemon.2).2.symm
  | pack => exact Or.inr ⟨rfl, safe_pack hrequest hsafe.buffer⟩
  | write =>
    exact Or.inr ⟨trivial, safe_write hdaemon hrequest (hsafe.read rfl) (hsafe.bit rfl) _⟩
  | fail => exact Or.inl rfl
  | rest _ _ hp => exact Or.inr ⟨hdaemon, hrequest⟩

/-- Between a lookup and the reading of the buffer. -/
def DaemonPhase.IsLooking : DaemonPhase → Prop
  | .looked | .flagged _ => True
  | _ => False

theorem daemon_holds {active : Bool} {entry₀ d : XdpRuntimeCfg} {p : DaemonPhase} {s s' : CfgState}
    (h : p.Holds active entry₀ d s) (hpacked : p = .packed → s'.val = s.val)
    (hlooking : p.IsLooking → s'.val = entry₀ ∨ s'.val = withActive active entry₀) :
    p.Holds active entry₀ d s' := by
  cases p with
  | looked => exact hlooking trivial
  | flagged current => exact ⟨h.1, hlooking trivial⟩
  | packed => exact (hpacked rfl).trans h
  | begin | timed current | packing | wrote | skipped | failed => exact h

theorem looking_val {active : Bool} {entry₀ d : XdpRuntimeCfg} {p : DaemonPhase} {s : CfgState}
    (h : p.Holds active entry₀ d s) (hlooking : p.IsLooking) :
    s.val = entry₀ ∨ s.val = withActive active entry₀ := by
  cases p with
  | looked => exact h
  | flagged current => exact h.2
  | begin | timed current | packing | packed | wrote | skipped | failed => exact hlooking.elim

theorem looking_before {active : Bool} {entry₀ d : XdpRuntimeCfg} {p : DaemonPhase}
    (h : p.IsLooking) : p.era active entry₀ d = eraBefore active entry₀ := by
  cases p with
  | looked | flagged current => rfl
  | begin | timed current | packing | packed | wrote | skipped | failed => exact h.elim

/-- What a lookup of the other thread finds. -/
theorem view_entry {active : Bool} {entry₀ d : XdpRuntimeCfg} {p : DaemonPhase} {s : CfgState}
    (h : p.Holds active entry₀ d s) (hunwritten : (p.era active entry₀ d).unwritten s.entry)
    (hpacked : p = .packed → s.entry = s.val) : (p.era active entry₀ d).view s.entry := by
  cases p with
  | packed => exact (hpacked rfl).trans h
  | begin | looked | timed current | flagged current | packing | wrote | skipped | failed =>
    exact hunwritten

theorem safe_lookup {active : Bool} {entry₀ d : XdpRuntimeCfg} {p : DaemonPhase} {s : CfgState}
    (h : p.Holds active entry₀ d s) (hunwritten : (p.era active entry₀ d).unwritten s.entry)
    (hpacked : p = .packed → s.entry = s.val) (n : ℕ) :
    p.Holds active entry₀ d { s with val := s.entry, syscalls := n } := by
  apply daemon_holds h hpacked
  intro hlooking
  rw [looking_before hlooking] at hunwritten
  exact Or.inl hunwritten

/-- The daemon's part of `NoClash` for a step of the other thread. -/
theorem safe_request (entry₀ d : XdpRuntimeCfg) (active : Bool) (p : DaemonPhase)
    (q q' : RequestPhase) (s s' : CfgState) (hmove : RequestMove active q s q' s')
    (h : Safe active entry₀ d p q s) (hbuffer : p = .packed → s'.val = s.val) :
    q' = .failed ∨ Safe active entry₀ d p q' s' := by
  obtain ⟨hdaemon, hrequest⟩ := h
  generalize hera : p.era active entry₀ d = e at hrequest
  have hlook (hunwritten : e.unwritten s.entry) (hsame : p = .packed → s.entry = s.val) :
      p.Holds active entry₀ d { s with val := s.entry, syscalls := s.syscalls + 1 } ∧
        e.view s.entry := by
    rw [← hera] at hunwritten ⊢
    exact ⟨safe_lookup hdaemon hunwritten hsame _, view_entry hdaemon hunwritten hsame⟩
  cases hmove with
  | lookFirst =>
    have hunwritten : e.unwritten s.entry := hrequest
    exact Or.inr ⟨(hlook hunwritten hbuffer).1, hera ▸ hunwritten⟩
  | previous => exact Or.inr ⟨hdaemon, hera ▸ hrequest⟩
  | look =>
    have hunwritten : e.unwritten s.entry := hrequest
    obtain ⟨hholds, hview⟩ := hlook hunwritten hbuffer
    exact Or.inr ⟨hholds, hera ▸ ⟨hview, hunwritten⟩⟩
  | flag => exact Or.inr ⟨hdaemon, hera ▸ ⟨e.view_flags _ hrequest.1, hrequest.2⟩⟩
  | lookAgain flags =>
    obtain ⟨hflags, hunwritten⟩ := hrequest
    obtain ⟨hholds, hview⟩ := hlook hunwritten hbuffer
    exact Or.inr ⟨hholds, hera ▸ ⟨⟨hflags, hview⟩, hunwritten⟩⟩
  | time flags =>
    obtain ⟨⟨hflags, hview⟩, hunwritten⟩ := hrequest
    exact Or.inr ⟨hdaemon, hera ▸ ⟨e.flags_packs _ _ hflags hview, hunwritten⟩⟩
  | pack fields =>
    obtain ⟨hpacks, hunwritten⟩ := hrequest
    refine Or.inr ⟨daemon_holds hdaemon hbuffer fun hlooking => ?_, hera ▸ ⟨hpacks, hunwritten⟩⟩
    rw [← hera, looking_before hlooking] at hpacks
    exact Or.inr hpacks
  | write =>
    obtain ⟨hpacks, -⟩ := hrequest
    have hwritten : e.written s.val := e.packs_written _ hpacks
    exact Or.inr ⟨daemon_holds hdaemon (fun _ => rfl) (looking_val hdaemon), hera ▸ hwritten⟩
  | fail => exact Or.inl rfl
  | rest _ _ hq => exact Or.inr ⟨hdaemon, hera ▸ hrequest⟩

/-! The whole run. -/

def Counted (r : Request) (n : ℕ) : RequestPhase → Prop
  | .begin | .looked => r.before ≤ n
  | .flagged _ | .timed _ | .both _ | .packed => r.before < n
  | _ => True

theorem unpacks_daemon (c : CfgPool) : unpacks (Pool.step cfgHandler c .daemon) = unpacks c := by
  cases hc : c.thread .daemon with
  | ret a => rw [Pool.step_of_ret cfgHandler c .daemon a hc]
  | op o k =>
    rw [Pool.step_of_op cfgHandler c .daemon o k hc, unpacks]
    exact List.countP_cons_of_neg (by simp)

theorem unpacks_abuseipdb (c : CfgPool) :
    unpacks (Pool.step cfgHandler c .abuseipdb) =
      unpacks c + if (c.thread .abuseipdb).next? = some .unpack then 1 else 0 := by
  cases hc : c.thread .abuseipdb with
  | ret a =>
    rw [Pool.step_of_ret cfgHandler c .abuseipdb a hc]
    rfl
  | op o k =>
    rw [Pool.step_of_op cfgHandler c .abuseipdb o k hc, unpacks, List.countP_cons]
    cases o <;> rfl

theorem counted_move {r : Request} {q q' : RequestPhase} {s s' : CfgState} {n : ℕ}
    (hmove : RequestMove r.active q s q' s') (h : Counted r n q) :
    Counted r (n + if (q.prog r.active).next? = some .unpack then 1 else 0) q' := by
  have hbefore : r.before ≤ 1 := by
    rw [Request.before]
    split_ifs <;> omega
  cases hmove with
  | lookFirst | write | fail => trivial
  | previous =>
    change r.before ≤ n + 1
    omega
  | look => exact h
  | flag =>
    have hn : r.before ≤ n := h
    change r.before < n + 1
    omega
  | lookAgain flags => exact h
  | time flags =>
    have hn : r.before < n := h
    change r.before < n + 1
    omega
  | pack fields => exact h
  | rest _ _ hq =>
    rcases hq with rfl | rfl <;> trivial

/-- Both threads are somewhere in their programs, and unless one has failed they hold what
they should. -/
structure Located (cfg : Config) (desired : DesiredState) (r : Request) (entry₀ : XdpRuntimeCfg)
    (c : CfgPool) (p : DaemonPhase) (q : RequestPhase) : Prop where
  daemon : c.thread .daemon = p.prog cfg desired
  request : c.thread .abuseipdb = q.prog r.active
  counted : Counted r (unpacks c) q
  safe : p = .failed ∨ q = .failed ∨ Safe r.active entry₀ (wanted cfg desired) p q c.shared

theorem located_start (s : CfgState) :
    ∃ p q, Located cfg desired r s.entry (cfgStart cfg desired r s) p q := by
  cases hwhole : r.whole with
  | true =>
    refine ⟨.begin, .first, rfl, ?_, trivial, Or.inr (Or.inr ⟨trivial, rfl⟩)⟩
    change r.prog = _
    rw [Request.prog, hwhole]
    rfl
  | false =>
    refine ⟨.begin, .begin, rfl, ?_, ?_, Or.inr (Or.inr ⟨trivial, rfl⟩)⟩
    · change r.prog = _
      rw [Request.prog, hwhole]
      rfl
    · change r.before ≤ _
      rw [Request.before, hwhole]
      exact Nat.zero_le _

theorem step_other (c : CfgPool) (p p' : Party) (h : p' ≠ p) :
    (Pool.step cfgHandler c p).thread p' = c.thread p' := by
  cases hc : c.thread p with
  | ret a => rw [Pool.step_of_ret cfgHandler c p a hc]
  | op o k =>
    rw [Pool.step_of_op cfgHandler c p o k hc]
    exact Function.update_of_ne h _ _

theorem daemonSafe_of_noClash {entry₀ : XdpRuntimeCfg} {c : CfgPool} {p p' : DaemonPhase}
    {q : RequestPhase} {s' : CfgState} (h : Located cfg desired r entry₀ c p q)
    (hmove : DaemonMove cfg desired p c.shared p' s') (hok : NoClash cfg desired r c .daemon) :
    DaemonSafe r.active (wanted cfg desired) p q c.shared s' := by
  have hnext : q.IsPacked → (c.thread .abuseipdb).next? = some .update := by
    intro hpacked
    rw [h.request]
    cases q with
    | packed => rfl
    | first | firstLooked | begin | looked | flagged f | timed f | both v | wrote | failed =>
      exact hpacked.elim
  have hdaemon := h.daemon
  refine ⟨fun hpacked => ?_, fun hp hreading => ?_, fun hp hwrote => ?_⟩
  · have hupdate := hnext hpacked
    cases hmove with
    | look => exact hok.lookup (by rw [hdaemon]; rfl) hupdate
    | lookAgain current => exact hok.lookup (by rw [hdaemon]; rfl) hupdate
    | pack => exact hok.pack _ (by rw [hdaemon]; rfl) hupdate
    | time | differ current | same current | write | fail | rest => rfl
  · subst hp
    apply hok.read rfl
    · rw [hdaemon]
      rfl
    · have hcounted := h.counted
      refine ⟨?_, ?_⟩
      · cases q with
        | flagged f | timed f | both v | packed => exact hcounted
        | first | firstLooked | begin | looked | wrote | failed => exact hreading.elim
      · rw [h.request]
        cases q with
        | flagged f | timed f | both v | packed => rfl
        | first | firstLooked | begin | looked | wrote | failed => exact hreading.elim
  · subst hp
    rw [activeIn_wanted]
    apply hok.bit rfl
    · rw [hdaemon]
      rfl
    · rw [h.request]
      cases q with
      | wrote => rfl
      | first | firstLooked | begin | looked | flagged f | timed f | both v | packed | failed =>
        exact hwrote.elim

/-- The buffer stays as the daemon packed it. -/
theorem buffer_of_noClash {entry₀ : XdpRuntimeCfg} {c : CfgPool} {p : DaemonPhase}
    {q q' : RequestPhase} {s' : CfgState} (h : Located cfg desired r entry₀ c p q)
    (hmove : RequestMove r.active q c.shared q' s') (hok : NoClash cfg desired r c .abuseipdb)
    (hp : p = .packed) : s'.val = c.shared.val := by
  subst hp
  have hupdate : (c.thread .daemon).next? = some .update := by
    rw [h.daemon]
    rfl
  have hrequest := h.request
  cases hmove with
  | lookFirst => exact hok.lookup (by rw [hrequest]; rfl) hupdate
  | look => exact hok.lookup (by rw [hrequest]; rfl) hupdate
  | lookAgain flags => exact hok.lookup (by rw [hrequest]; rfl) hupdate
  | pack fields => exact hok.pack _ (by rw [hrequest]; rfl) hupdate
  | previous | flag | time flags | write | fail | rest => rfl

theorem failed_move {p' : DaemonPhase} {s s' : CfgState}
    (h : DaemonMove cfg desired .failed s p' s') : p' = .failed := by
  cases h
  rfl

theorem failed_request {active : Bool} {q' : RequestPhase} {s s' : CfgState}
    (h : RequestMove active .failed s q' s') : q' = .failed := by
  cases h
  rfl

theorem located_step {entry₀ : XdpRuntimeCfg} (c : CfgPool) (who : Party)
    (h : ∃ p q, Located cfg desired r entry₀ c p q) (hok : NoClash cfg desired r c who) :
    ∃ p q, Located cfg desired r entry₀ (Pool.step cfgHandler c who) p q := by
  obtain ⟨p, q, h⟩ := h
  cases who with
  | daemon =>
    obtain ⟨p', hp', hmove⟩ := daemon_step cfg desired c p h.daemon hok.found
    refine ⟨p', q, hp', ?_, ?_, ?_⟩
    · rw [step_other c .daemon .abuseipdb (by decide)]
      exact h.request
    · rw [unpacks_daemon]
      exact h.counted
    · rcases h.safe with rfl | hq | hsafe
      · exact Or.inl (failed_move hmove)
      · exact Or.inr (Or.inl hq)
      · rcases safe_daemon entry₀ p p' q _ _ hmove hsafe (daemonSafe_of_noClash h hmove hok) with
          hfailed | hsafe'
        · exact Or.inl hfailed
        · exact Or.inr (Or.inr hsafe')
  | abuseipdb =>
    obtain ⟨q', hq', hmove⟩ := request_step r.active c q h.request hok.found
    refine ⟨p, q', ?_, hq', ?_, ?_⟩
    · rw [step_other c .abuseipdb .daemon (by decide)]
      exact h.daemon
    · rw [unpacks_abuseipdb, h.request]
      exact counted_move hmove h.counted
    · rcases h.safe with hp | rfl | hsafe
      · exact Or.inl hp
      · exact Or.inr (Or.inl (failed_request hmove))
      · rcases safe_request entry₀ _ r.active p q q' _ _ hmove hsafe
            (buffer_of_noClash h hmove hok) with hfailed | hsafe'
        · exact Or.inr (Or.inl hfailed)
        · exact Or.inr (Or.inr hsafe')

theorem request_done {active : Bool} {q : RequestPhase}
    (h : (q.prog active).result? = some true) : q = .wrote := by
  cases q with
  | wrote => rfl
  | failed => exact absurd (Option.some.inj h) Bool.false_ne_true
  | first | firstLooked | begin | looked | flagged f | timed f | both v | packed =>
    have hnone : (none : Option Bool) = some true := h
    exact absurd hnone nofun

theorem daemon_done {p : DaemonPhase} (h : (p.prog cfg desired).result? = some true) :
    p = .wrote ∨ p = .skipped := by
  cases p with
  | wrote => exact Or.inl rfl
  | skipped => exact Or.inr rfl
  | failed => exact absurd (Option.some.inj h) Bool.false_ne_true
  | begin | looked | timed current | flagged current | packing | packed =>
    have hnone : (none : Option Bool) = some true := h
    exact absurd hnone nofun

theorem bothKept_of_located {entry₀ : XdpRuntimeCfg} {c : CfgPool} {p : DaemonPhase}
    {q : RequestPhase} (h : Located cfg desired r entry₀ c p q)
    (hdaemon : (c.thread .daemon).result? = some true)
    (hrequest : (c.thread .abuseipdb).result? = some true) :
    BothKept cfg desired r c.shared.entry := by
  rw [h.daemon] at hdaemon
  rw [h.request] at hrequest
  obtain rfl := request_done hrequest
  have hsafe := h.safe
  rcases daemon_done hdaemon with rfl | rfl
  · simp only [reduceCtorEq, false_or] at hsafe
    exact hsafe.request
  · simp only [reduceCtorEq, false_or] at hsafe
    have hentry : c.shared.entry = withActive r.active entry₀ := hsafe.request
    refine ⟨?_, ?_⟩
    · rw [hentry, agrees_withActive]
      exact hsafe.daemon
    · rw [hentry]
      exact activeIn_withActive ..

end RuntimeCfgRace

open RuntimeCfgRace

/-- No update is lost when no step clashes with the other thread. -/
theorem runtime_config_kept (cfg : Config) (desired : DesiredState) (r : Request) (s : CfgState)
    (sched : List Party)
    (hok : Guarded (Pool.step cfgHandler) (NoClash cfg desired r) (cfgStart cfg desired r s) sched)
    (hdaemon : ((Pool.run cfgHandler (cfgStart cfg desired r s) sched).thread .daemon).result? =
      some true)
    (hrequest : ((Pool.run cfgHandler (cfgStart cfg desired r s) sched).thread .abuseipdb).result? =
      some true) :
    BothKept cfg desired r (Pool.run cfgHandler (cfgStart cfg desired r s) sched).shared.entry := by
  obtain ⟨p, q, h⟩ := invariant_run (Pool.step cfgHandler) (NoClash cfg desired r)
    (fun c => ∃ p q, Located cfg desired r s.entry c p q)
    (fun c who hc hwho => located_step c who hc hwho) _ sched (located_start s) hok
  exact bothKept_of_located h hdaemon hrequest

/-- An entry that still holds zeros, and a list to be put in force. -/
def sampleCfgPool : CfgPool :=
  cfgStart { abuseipdbEnabled := true } {} { whole := true, active := true } ⟨{}, {}, fun _ => false, 0⟩

/-- The daemon's six calls, then the other thread's eight. -/
def oneAfterTheOther : List Party := List.replicate 6 .daemon ++ List.replicate 8 .abuseipdb

theorem runtime_config_kept_serial :
    BothKept { abuseipdbEnabled := true } {} { whole := true, active := true }
      (Pool.run cfgHandler sampleCfgPool oneAfterTheOther).shared.entry :=
  runtime_config_kept { abuseipdbEnabled := true } {} { whole := true, active := true }
    ⟨{}, {}, fun _ => false, 0⟩ oneAfterTheOther (by decide +kernel) (by decide +kernel)
    (by decide +kernel)

/-- `set_active` reads, the daemon writes, `set_active` writes back what it read. -/
def writtenBack : List Party :=
  List.replicate 6 .abuseipdb ++ List.replicate 6 .daemon ++ List.replicate 2 .abuseipdb

theorem runtime_config_lost :
    ((Pool.run cfgHandler sampleCfgPool writtenBack).thread .daemon).result? = some true ∧
      ((Pool.run cfgHandler sampleCfgPool writtenBack).thread .abuseipdb).result? = some true ∧
      ¬BothKept { abuseipdbEnabled := true } {} { whole := true, active := true }
        (Pool.run cfgHandler sampleCfgPool writtenBack).shared.entry := by
  refine ⟨by decide +kernel, by decide +kernel, ?_⟩
  rintro ⟨⟨htimings, -⟩, -⟩
  have hreverted : timings (Pool.run cfgHandler sampleCfgPool writtenBack).shared.entry ≠
      timings (wanted { abuseipdbEnabled := true } {}) := by decide +kernel
  exact hreverted htimings

end AutoXdp
