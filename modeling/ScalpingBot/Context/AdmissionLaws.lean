import Mathlib.Data.List.ReduceOption
import ScalpingBot.Context.Admission

/-! What holds over every run of claims, completions and retirements: when a call is admitted, whom
    it follows up, and how far apart calls are. -/

namespace ScalpingBot.Admission

/-! ### One admission -/

variable {s t : Db} {clock : Clock} {scope : Scope} {input : ClaimInput}

/-- What an admission says about the row that it adds to the contexts before it. -/
structure Follows (earlier : List ScenarioContext) (x : ScenarioContext) : Prop where
  later : ∀ y ∈ earlier, y.scope = x.scope → y.requestedAt < x.requestedAt
  parent : ∀ p ∈ x.parents, ∃ c ∈ earlier, c.id = p ∧ c.scope = x.scope ∧
    (∀ y ∈ earlier, y.scope = x.scope → y.requestedAt ≤ c.requestedAt) ∧
    (x.refreshAfterEntry = some p → c.refreshAfterEntry = none)
  spacing : x.parents = [] → ∀ y ∈ earlier, y.scope = x.scope →
    y.requestedAt + minute ≤ x.requestedAt ∧ (y.requestedAt + fiveMinutes ≤ x.requestedAt ∨
      y.circuitRejected ∧ ∃ at', y.completedAt = some at' ∧ at' < x.requestedAt)
  requesting : ∀ y ∈ earlier, y.scope = x.scope → y.state = .requesting →
    y.requestedAt + fiveMinutes ≤ x.requestedAt

/-- Every context follows those before it, and has an id of its own. -/
def Chain : List ScenarioContext → Prop
  | [] => True
  | x :: earlier => Follows earlier x ∧ (∀ y ∈ earlier, y.id ≠ x.id) ∧ Chain earlier

theorem newest_iff {c : ScenarioContext} {contexts : List ScenarioContext} :
    c.newest contexts ↔ ∀ x ∈ contexts, x.scope = c.scope → x.requestedAt ≤ c.requestedAt := by
  simp [ScenarioContext.newest]

/-- The statement admits a call that follows up none, or one whose parent is ready and the newest of
    the scope. -/
theorem admits_cases {snapshot : Snapshot} (h : snapshot.admits clock scope input) :
    snapshot.noOpenGroup scope ∧
    ((input.afterContextId = none ∧ input.afterEntryContextId = none ∧
        input.afterWaitContextId = none ∧ snapshot.unparented clock scope) ∨
      ∃ c ∈ snapshot.contexts, c.scope = scope ∧ c.state = .ready ∧ c.newest snapshot.contexts ∧
        [input.afterContextId, input.afterEntryContextId, input.afterWaitContextId].reduceOption =
          [c.id] ∧ (input.afterEntryContextId ≠ none → c.refreshAfterEntry = none)) := by
  simp only [Snapshot.admits, Bool.and_eq_true] at h
  obtain ⟨hgroups, hproof⟩ := h
  refine ⟨hgroups, ?_⟩
  cases hafter : input.afterContextId <;> cases hentry : input.afterEntryContextId <;>
    cases hwait : input.afterWaitContextId <;> simp only [hafter, hentry, hwait] at hproof
  case none.none.none => exact .inl ⟨rfl, rfl, rfl, hproof⟩
  case some.none.none id =>
    simp only [Snapshot.terminalRefresh, decide_eq_true_eq] at hproof
    obtain ⟨c, hc, g, -, -, rfl, hscope, hready, hnewest, -⟩ := hproof
    exact .inr ⟨c, hc, hscope, hready, hnewest, rfl, fun hne => absurd rfl hne⟩
  case none.some.none id =>
    simp only [Snapshot.entryReplacement, Snapshot.entryReplacementProof, decide_eq_true_eq]
      at hproof
    obtain ⟨c, hc, rfl, hscope, hready, -, -, hentry, -, -, -, -, -, hnewest, -⟩ := hproof
    exact .inr ⟨c, hc, hscope, hready, hnewest, rfl, fun _ => hentry⟩
  case none.none.some id =>
    simp only [Snapshot.waitRefresh, decide_eq_true_eq] at hproof
    obtain ⟨⟨c, hc, rfl, hscope, hready, -, -, -, -, -, -, -, hnewest, -⟩, -⟩ := hproof
    exact .inr ⟨c, hc, hscope, hready, hnewest, rfl, fun hne => absurd rfl hne⟩
  all_goals cases hproof

theorem clock_le (elapsed : ℕ) (offset : Site → ℕ → ℕ) (site : Site) (row : ℕ) :
    s.clock elapsed offset site row < s.now + 2 + elapsed := by
  rw [Db.clock]
  omega

/-- Every failed context failed before now. -/
def FailedBefore (s : Db) : Prop :=
  ∀ x ∈ s.contexts, x.state = .failed → ∃ at', x.completedAt = some at' ∧ at' ≤ s.now

/-- In a chain, two contexts of a scope are in the order of their requests. -/
theorem Chain.requesting {contexts : List ScenarioContext} (hchain : Chain contexts)
    {x y : ScenarioContext} (hx : x ∈ contexts) (hy : y ∈ contexts) (hscope : y.scope = x.scope)
    (hlt : y.requestedAt < x.requestedAt) (hstate : y.state = .requesting) :
    y.requestedAt + fiveMinutes ≤ x.requestedAt := by
  induction contexts with
  | nil => cases hx
  | cons z earlier ih =>
    obtain ⟨hfollows, -, hrest⟩ := hchain
    rcases List.mem_cons.mp hx with rfl | hx' <;> rcases List.mem_cons.mp hy with rfl | hy'
    · omega
    · exact hfollows.requesting y hy' hscope hstate
    · have hlater := hfollows.later x hx' hscope.symm
      omega
    · exact ih hrest hx' hy'

theorem Chain.requestedAt_inj {contexts : List ScenarioContext} (hchain : Chain contexts)
    {x y : ScenarioContext} (hx : x ∈ contexts) (hy : y ∈ contexts) (hscope : y.scope = x.scope)
    (heq : y.requestedAt = x.requestedAt) : x = y := by
  induction contexts with
  | nil => cases hx
  | cons z earlier ih =>
    obtain ⟨hfollows, -, hrest⟩ := hchain
    rcases List.mem_cons.mp hx with rfl | hx' <;> rcases List.mem_cons.mp hy with rfl | hy'
    · rfl
    · have hlater := hfollows.later y hy' hscope
      omega
    · have hlater := hfollows.later x hx' hscope.symm
      omega
    · exact ih hrest hx' hy'

theorem Chain.id_inj {contexts : List ScenarioContext} (hchain : Chain contexts)
    {x y : ScenarioContext} (hx : x ∈ contexts) (hy : y ∈ contexts) (heq : x.id = y.id) :
    x = y := by
  induction contexts with
  | nil => cases hx
  | cons z earlier ih =>
    obtain ⟨-, hfresh, hrest⟩ := hchain
    rcases List.mem_cons.mp hx with rfl | hx' <;> rcases List.mem_cons.mp hy with rfl | hy'
    · rfl
    · exact absurd heq.symm (hfresh y hy')
    · exact absurd heq (hfresh x hx')
    · exact ih hrest hx' hy'

/-- The row of an admitted call follows the contexts that its statement saw. -/
theorem follows_requested {elapsed : ℕ} {offset : Site → ℕ → ℕ}
    (h : s.snapshot.admits (s.clock elapsed offset) scope input) (hchain : Chain s.contexts)
    (hbefore : ∀ x ∈ s.contexts, x.requestedAt ≤ s.now) (hfailed : FailedBefore s) :
    Follows s.contexts (s.requested scope input elapsed) := by
  have hread (site : Site) (row : ℕ) : s.clock elapsed offset site row <
      (s.requested scope input elapsed).requestedAt := clock_le elapsed offset site row
  have hlater (y : ScenarioContext) (hy : y ∈ s.contexts) :
      y.requestedAt < (s.requested scope input elapsed).requestedAt := by
    have hle := hbefore y hy
    simp only [Db.requested]
    omega
  obtain ⟨-, ⟨hafter, hentry, hwait, hunparented⟩ | ⟨c, hc, hscope, hready, hnewest, hparents,
    hreplacement⟩⟩ := admits_cases h
  · obtain ⟨hcooldown, hminute⟩ := of_decide_eq_true hunparented
    refine ⟨fun y hy _ => hlater y hy, fun p hp => ?_, fun _ y hy hyscope => ⟨?_, ?_⟩,
      fun y hy hyscope hstate => ?_⟩
    · simp only [ScenarioContext.parents, Db.requested, hafter, hentry, hwait] at hp
      cases hp
    · have hspaced := hminute y hy hyscope
      have hlt := hread .spacing y.id
      omega
    · by_cases hcircuit : y.circuitRejected
      · right
        simp only [ScenarioContext.circuitRejected, decide_eq_true_eq] at hcircuit
        obtain ⟨at', hat, hle⟩ := hfailed y hy hcircuit.1
        refine ⟨by simp [ScenarioContext.circuitRejected, hcircuit], at', hat, ?_⟩
        simp only [Db.requested]
        omega
      · left
        have hcool : ¬ s.clock elapsed offset .cooldown y.id - fiveMinutes < y.requestedAt :=
          fun hrecent => hcooldown y hy hyscope ⟨hrecent, hcircuit⟩
        have hlt := hread .cooldown y.id
        omega
    · have hcool : ¬ s.clock elapsed offset .cooldown y.id - fiveMinutes < y.requestedAt := by
        intro hrecent
        refine hcooldown y hy hyscope ⟨hrecent, ?_⟩
        simp [ScenarioContext.circuitRejected, hstate]
      have hlt := hread .cooldown y.id
      omega
  · have hparents' : (s.requested scope input elapsed).parents = [c.id] := hparents
    have hnewest' := newest_iff.mp hnewest
    refine ⟨fun y hy _ => hlater y hy, fun p hp => ?_, fun hnone => ?_,
      fun y hy hyscope hstate => ?_⟩
    · rw [hparents', List.mem_singleton] at hp
      subst hp
      refine ⟨c, hc, rfl, hscope, fun y hy hyscope => hnewest' y hy (hyscope.trans hscope.symm),
        fun hentry => hreplacement ?_⟩
      have hinput : input.afterEntryContextId = some c.id := hentry
      rw [hinput]
      nofun
    · rw [hparents'] at hnone
      cases hnone
    · have hyscope' : y.scope = c.scope := hyscope.trans hscope.symm
      have hle := hnewest' y hy hyscope'
      have hparent := hlater c hc
      rcases hle.lt_or_eq with hlt | heq
      · have hspaced := hchain.requesting hc hy hyscope' hlt hstate
        omega
      · obtain rfl := hchain.requestedAt_inj hc hy hyscope' heq
        rw [hready] at hstate
        cases hstate

/-! ### Completions -/

/-- A change of contexts that completes calls and does nothing else. -/
structure Completes (f : ScenarioContext → ScenarioContext) : Prop where
  id : ∀ c, (f c).id = c.id
  scope : ∀ c, (f c).scope = c.scope
  requestedAt : ∀ c, (f c).requestedAt = c.requestedAt
  refreshAfterEntry : ∀ c, (f c).refreshAfterEntry = c.refreshAfterEntry
  parents : ∀ c, (f c).parents = c.parents
  final : ∀ c, c.state ≠ .requesting → f c = c

theorem settle_completes (id : ℕ) (scope : Scope) (result : Option ContextPlan)
    (reason : Option String) : Completes (s.settle id scope result reason) := by
  refine ⟨fun c => ?_, fun c => ?_, fun c => ?_, fun c => ?_, fun c => ?_, fun c hfinal => ?_⟩
  all_goals rw [Db.settle]
  case refine_6 => rw [if_neg fun h => hfinal h.2.1]
  all_goals split <;> rfl

namespace Completes

variable {f : ScenarioContext → ScenarioContext} (hf : Completes f)
include hf

theorem requesting {c : ScenarioContext} (h : (f c).state = .requesting) :
    c.state = .requesting := by
  by_contra hne
  rw [hf.final c hne] at h
  exact hne h

theorem follows {earlier : List ScenarioContext} {x : ScenarioContext} (h : Follows earlier x) :
    Follows (earlier.map f) x := by
  refine ⟨fun y hy hscope => ?_, fun p hp => ?_, fun hnone y hy hscope => ?_,
    fun y hy hscope hstate => ?_⟩
  · obtain ⟨c, hc, rfl⟩ := List.mem_map.mp hy
    rw [hf.requestedAt]
    exact h.later c hc (hf.scope c ▸ hscope)
  · obtain ⟨c, hc, hid, hscope, hnewest, hentry⟩ := h.parent p hp
    refine ⟨f c, List.mem_map_of_mem hc, (hf.id c).trans hid, (hf.scope c).trans hscope,
      fun y hy hyscope => ?_, fun heq => (hf.refreshAfterEntry c).trans (hentry heq)⟩
    obtain ⟨d, hd, rfl⟩ := List.mem_map.mp hy
    rw [hf.requestedAt, hf.requestedAt]
    exact hnewest d hd (hf.scope d ▸ hyscope)
  · obtain ⟨c, hc, rfl⟩ := List.mem_map.mp hy
    obtain ⟨hminute, hcool⟩ := h.spacing hnone c hc (hf.scope c ▸ hscope)
    rw [hf.requestedAt]
    refine ⟨hminute, hcool.imp_right fun hcircuit => ?_⟩
    have hstate : c.state ≠ .requesting := by
      have hfailed := hcircuit.1
      simp only [ScenarioContext.circuitRejected, decide_eq_true_eq] at hfailed
      rw [hfailed.1]
      nofun
    rwa [hf.final c hstate]
  · obtain ⟨c, hc, rfl⟩ := List.mem_map.mp hy
    rw [hf.requestedAt]
    exact h.requesting c hc (hf.scope c ▸ hscope) (hf.requesting hstate)

theorem chain {contexts : List ScenarioContext} (h : Chain contexts) : Chain (contexts.map f) := by
  induction contexts with
  | nil => trivial
  | cons x earlier ih =>
    obtain ⟨hfollows, hfresh, hrest⟩ := h
    obtain ⟨hlater, hparent, hspacing, hrequesting⟩ := hf.follows hfollows
    refine ⟨⟨?_, ?_, ?_, ?_⟩, fun y hy => ?_, ih hrest⟩
    · rw [hf.scope, hf.requestedAt]
      exact hlater
    · rw [hf.scope, hf.parents, hf.refreshAfterEntry]
      exact hparent
    · rw [hf.scope, hf.parents, hf.requestedAt]
      exact hspacing
    · rw [hf.scope, hf.requestedAt]
      exact hrequesting
    · obtain ⟨c, hc, rfl⟩ := List.mem_map.mp hy
      rw [hf.id, hf.id]
      exact hfresh c hc

end Completes

/-- A context of another scope changes nothing. -/
theorem Follows.cons {earlier : List ScenarioContext} {x z : ScenarioContext}
    (h : Follows earlier x) (hz : z.scope ≠ x.scope) : Follows (z :: earlier) x := by
  have hmem {y : ScenarioContext} (hy : y ∈ z :: earlier) (hscope : y.scope = x.scope) :
      y ∈ earlier := by
    rcases List.mem_cons.mp hy with rfl | hy
    · exact absurd hscope hz
    · exact hy
  refine ⟨fun y hy hscope => h.later y (hmem hy hscope) hscope, fun p hp => ?_,
    fun hnone y hy hscope => h.spacing hnone y (hmem hy hscope) hscope,
    fun y hy hscope => h.requesting y (hmem hy hscope) hscope⟩
  obtain ⟨c, hc, hid, hscope, hnewest, hentry⟩ := h.parent p hp
  exact ⟨c, List.mem_cons_of_mem z hc, hid, hscope,
    fun y hy hyscope => hnewest y (hmem hy hyscope) hyscope, hentry⟩

/-! ### Runs -/

/-- What every step keeps. -/
structure Sound (s : Db) : Prop where
  chain : Chain s.contexts
  before : ∀ x ∈ s.contexts, x.requestedAt ≤ s.now
  failed : FailedBefore s
  locked : ∀ i scope, (s.claims i).scope = some scope → s.locks scope = some i
  pending : ∀ i x groups, s.claims i = .inserted x groups → x.requestedAt ≤ s.now ∧
    x.state = .requesting ∧ Follows s.contexts x ∧ ∀ g ∈ groups, g.ofScope x.scope → ended g.state
  seen : ∀ x ∈ s.contexts, ∀ g ∈ s.seen x.id, g.ofScope x.scope → ended g.state

theorem locked_release (h : ∀ i scope, (s.claims i).scope = some scope →
    s.locks scope = some i) (j i : ℕ) (scope : Scope)
    (hi : ((s.release j).claims i).scope = some scope) :
    (s.release j).locks scope = some i := by
  by_cases hij : i = j
  · subst hij
    simp only [Db.release, Function.update_self] at hi
    cases hi
  · simp only [Db.release, Function.update_of_ne hij] at hi
    exact Locks.release_of_held hij (h i scope hi)

theorem pending_release {i j : ℕ} {x : ScenarioContext} {groups : List OrderGroup}
    (h : (s.release j).claims i = .inserted x groups) : i ≠ j ∧ s.claims i = .inserted x groups := by
  by_cases hij : i = j
  · subst hij
    simp only [Db.release, Function.update_self] at h
    cases h
  · simp only [Db.release, Function.update_of_ne hij] at h
    exact ⟨hij, h⟩

theorem sound_insert (hs : Sound s) {i : ℕ} (hi : s.claims i = .locked scope) {elapsed : ℕ}
    {offset : Site → ℕ → ℕ} : Sound (s.insert i scope input elapsed offset) := by
  have hnow {a : ℤ} (ha : a ≤ s.now) : a ≤ s.now + 2 + elapsed := by omega
  have hfailed (x : ScenarioContext) (hx : x ∈ s.contexts) (hstate : x.state = .failed) :
      ∃ at', x.completedAt = some at' ∧ at' ≤ s.now + 2 + elapsed := by
    obtain ⟨at', hat, hle⟩ := hs.failed x hx hstate
    exact ⟨at', hat, hnow hle⟩
  rw [Db.insert]
  split
  · next hadmits =>
    refine ⟨hs.chain, fun x hx => hnow (hs.before x hx), hfailed, fun j other hj => ?_,
      fun j x groups hj => ?_, hs.seen⟩
    · by_cases hij : j = i
      · subst hij
        simp only [Function.update_self] at hj
        refine hs.locked j other ?_
        rw [hi]
        exact hj
      · simp only [Function.update_of_ne hij] at hj
        exact hs.locked j other hj
    · by_cases hij : j = i
      · subst hij
        simp only [Function.update_self, Phase.inserted.injEq] at hj
        obtain ⟨rfl, rfl⟩ := hj
        refine ⟨le_rfl, rfl, follows_requested hadmits hs.chain hs.before hs.failed, ?_⟩
        exact of_decide_eq_true (admits_cases hadmits).1
      · simp only [Function.update_of_ne hij] at hj
        obtain ⟨hle, hrest⟩ := hs.pending j x groups hj
        exact ⟨hnow hle, hrest⟩
  · refine ⟨hs.chain, fun x hx => hnow (hs.before x hx), hfailed, locked_release hs.locked i,
      fun j x groups hj => ?_, hs.seen⟩
    obtain ⟨hle, hrest⟩ := hs.pending j x groups (pending_release hj).2
    exact ⟨hnow hle, hrest⟩

theorem sound_commit (hs : Sound s) {i : ℕ} {x : ScenarioContext} {groups : List OrderGroup}
    (hi : s.claims i = .inserted x groups) (hfresh : ∀ c ∈ s.contexts, c.id ≠ x.id) :
    Sound { s.release i with
      contexts := x :: s.contexts
      seen := Function.update s.seen x.id groups } := by
  obtain ⟨hnow, hstate, hfollows, hgroups⟩ := hs.pending i x groups hi
  refine ⟨⟨hfollows, hfresh, hs.chain⟩, fun y hy => ?_, fun y hy hfailed => ?_,
    locked_release hs.locked i, fun j y groups' hj => ?_, fun y hy => ?_⟩
  · rcases List.mem_cons.mp hy with rfl | hy
    · exact hnow
    · exact hs.before y hy
  · rcases List.mem_cons.mp hy with rfl | hy
    · rw [hstate] at hfailed
      cases hfailed
    · exact hs.failed y hy hfailed
  · obtain ⟨hij, hj⟩ := pending_release hj
    obtain ⟨hnowY, hstateY, hfollowsY, hgroupsY⟩ := hs.pending j y groups' hj
    refine ⟨hnowY, hstateY, hfollowsY.cons fun hscope => hij ?_, hgroupsY⟩
    -- the two claims would hold the same advisory lock
    have hlock := hs.locked i x.scope (by rw [hi]; rfl)
    have hlockY := hs.locked j y.scope (by rw [hj]; rfl)
    rw [hscope] at hlock
    exact Locks.holder_unique hlockY hlock
  · rcases List.mem_cons.mp hy with rfl | hy
    · simp only [Function.update_self]
      exact hgroups
    · simp only [Function.update_of_ne (hfresh y hy)]
      exact hs.seen y hy

theorem sound_finish (hs : Sound s) (id : ℕ) (scope : Scope) (result : Option ContextPlan)
    (reason : Option String) : Sound { s with
      now := s.now + 1
      contexts := s.contexts.map (s.settle id scope result reason) } := by
  have hf := settle_completes (s := s) id scope result reason
  refine ⟨hf.chain hs.chain, fun x hx => ?_, fun x hx hfailed => ?_, hs.locked,
    fun i x groups hi => ?_, fun x hx => ?_⟩
  · obtain ⟨c, hc, rfl⟩ := List.mem_map.mp hx
    rw [hf.requestedAt]
    exact Int.le_add_one (hs.before c hc)
  · obtain ⟨c, hc, rfl⟩ := List.mem_map.mp hx
    by_cases hmatch : c.id = id ∧ c.state = .requesting ∧ c.scope = scope
    · refine ⟨s.now + 1, ?_, le_rfl⟩
      rw [Db.settle, if_pos hmatch]
    · rw [Db.settle, if_neg hmatch] at hfailed ⊢
      obtain ⟨at', hat, hle⟩ := hs.failed c hc hfailed
      exact ⟨at', hat, Int.le_add_one hle⟩
  · obtain ⟨hnow, hstate, hfollows, hgroups⟩ := hs.pending i x groups hi
    exact ⟨Int.le_add_one hnow, hstate, hf.follows hfollows, hgroups⟩
  · obtain ⟨c, hc, rfl⟩ := List.mem_map.mp hx
    rw [hf.id, hf.scope]
    exact hs.seen c hc

theorem sound_tick (hs : Sound s) (elapsed : ℕ) : Sound { s with now := s.now + elapsed } := by
  have hlater : s.now ≤ s.now + elapsed := by omega
  refine ⟨hs.chain, fun x hx => ?_, fun x hx hfailed => ?_, hs.locked, fun i x groups hi => ?_,
    hs.seen⟩
  · exact (hs.before x hx).trans hlater
  · obtain ⟨at', hat, hle⟩ := hs.failed x hx hfailed
    exact ⟨at', hat, hle.trans hlater⟩
  · obtain ⟨hnow, hrest⟩ := hs.pending i x groups hi
    exact ⟨hnow.trans hlater, hrest⟩

theorem sound_lock (hs : Sound s) {i : ℕ} (hfree : s.locks scope = none) :
    Sound { s with
      locks := Locks.acquire s.locks i scope
      claims := Function.update s.claims i (.locked scope) } := by
  refine ⟨hs.chain, hs.before, hs.failed, fun j other hj => ?_, fun j x groups hj => ?_, hs.seen⟩
  · by_cases hij : j = i
    · subst hij
      simp only [Function.update_self, Phase.scope, Option.some.injEq] at hj
      subst hj
      exact Locks.acquire_self
    · simp only [Function.update_of_ne hij] at hj
      exact Locks.acquire_of_held (by simp [Locks.free, hfree]) (hs.locked j other hj)
  · by_cases hij : j = i
    · subst hij
      simp only [Function.update_self] at hj
      cases hj
    · simp only [Function.update_of_ne hij] at hj
      exact hs.pending j x groups hj

theorem sound_release (hs : Sound s) (i : ℕ) : Sound (s.release i) :=
  ⟨hs.chain, hs.before, hs.failed, locked_release hs.locked i,
    fun j x groups hj => hs.pending j x groups (pending_release hj).2, hs.seen⟩

theorem sound_step {e : Event} (hs : Sound s) (h : s.step e = some t) : Sound t := by
  cases e with
  | tick elapsed =>
    cases h
    exact sound_tick hs elapsed
  | lock i scope =>
    cases hi : s.claims i with
    | idle =>
      simp only [Db.step, hi] at h
      split at h
      · next hfree =>
        cases h
        exact sound_lock hs hfree
      · cases h
    | _ =>
      simp only [Db.step, hi] at h
      cases h
  | insert i input elapsed offset =>
    cases hi : s.claims i with
    | locked scope =>
      simp only [Db.step, hi] at h
      cases h
      exact sound_insert hs hi
    | _ =>
      simp only [Db.step, hi] at h
      cases h
  | commit i =>
    cases hi : s.claims i with
    | inserted x groups =>
      simp only [Db.step, hi] at h
      split at h
      · next hfresh =>
        cases h
        exact sound_commit hs hi hfresh
      · cases h
    | _ =>
      simp only [Db.step, hi] at h
      cases h
  | rollback i =>
    cases h
    exact sound_release hs i
  | finish id scope result reason =>
    cases h
    exact sound_finish hs id scope result reason
  | retire id scope =>
    simp only [Db.step] at h
    split at h
    · cases h
      exact ⟨hs.chain, hs.before, hs.failed, hs.locked, hs.pending, hs.seen⟩
    · cases h
  | evidence evidence =>
    cases h
    exact ⟨hs.chain, hs.before, hs.failed, hs.locked, hs.pending, hs.seen⟩

/-- The context that a row of a chain follows up. -/
theorem Chain.parent {contexts : List ScenarioContext} (hchain : Chain contexts)
    {x : ScenarioContext} (hx : x ∈ contexts) {p : ℕ} (hp : p ∈ x.parents) :
    ∃ c ∈ contexts, c.id = p ∧ c.scope = x.scope ∧ c.requestedAt < x.requestedAt ∧
      (∀ y ∈ contexts, y.scope = x.scope → y.requestedAt ≤ c.requestedAt ∨
        x.requestedAt ≤ y.requestedAt) ∧
      (x.refreshAfterEntry = some p → c.refreshAfterEntry = none) := by
  induction contexts with
  | nil => cases hx
  | cons z earlier ih =>
    obtain ⟨hfollows, -, hrest⟩ := hchain
    rcases List.mem_cons.mp hx with rfl | hx'
    · obtain ⟨c, hc, hid, hscope, hnewest, hentry⟩ := hfollows.parent p hp
      refine ⟨c, List.mem_cons_of_mem x hc, hid, hscope, hfollows.later c hc hscope,
        fun y hy hyscope => ?_, hentry⟩
      rcases List.mem_cons.mp hy with rfl | hy
      · exact .inr le_rfl
      · exact .inl (hnewest y hy hyscope)
    · obtain ⟨c, hc, hid, hscope, hlt, hnewest, hentry⟩ := ih hrest hx'
      refine ⟨c, List.mem_cons_of_mem z hc, hid, hscope, hlt, fun y hy hyscope => ?_, hentry⟩
      rcases List.mem_cons.mp hy with rfl | hy
      · exact .inr (hfollows.later x hx' hyscope.symm).le
      · exact hnewest y hy hyscope

theorem Chain.spacing {contexts : List ScenarioContext} (hchain : Chain contexts)
    {x y : ScenarioContext} (hx : x ∈ contexts) (hy : y ∈ contexts) (hnone : x.parents = [])
    (hscope : y.scope = x.scope) (hlt : y.requestedAt < x.requestedAt) :
    y.requestedAt + minute ≤ x.requestedAt ∧ (y.requestedAt + fiveMinutes ≤ x.requestedAt ∨
      y.circuitRejected ∧ ∃ at', y.completedAt = some at' ∧ at' < x.requestedAt) := by
  induction contexts with
  | nil => cases hx
  | cons z earlier ih =>
    obtain ⟨hfollows, -, hrest⟩ := hchain
    rcases List.mem_cons.mp hx with rfl | hx' <;> rcases List.mem_cons.mp hy with rfl | hy'
    · omega
    · exact hfollows.spacing hnone y hy' hscope
    · have hlater := hfollows.later x hx' hscope.symm
      omega
    · exact ih hrest hx' hy'

/-- The bound on paid calls: a call is admitted only while no group of its scope is under way; a
    context is followed up once, while it is the newest of its scope; a replacement follows up no
    replacement; a call that follows up none keeps its distance; and of the calls of the last five
    minutes at most one is under way. -/
structure Paced (s : Db) : Prop where
  noOpenGroup : ∀ x ∈ s.contexts, ∀ g ∈ s.seen x.id, g.ofScope x.scope → ended g.state
  followedOnce : ∀ x ∈ s.contexts, ∀ y ∈ s.contexts, ∀ p, p ∈ x.parents → p ∈ y.parents → x = y
  whileNewest : ∀ x ∈ s.contexts, ∀ p ∈ x.parents, ∃ c ∈ s.contexts, c.id = p ∧
    c.scope = x.scope ∧ c.requestedAt < x.requestedAt ∧ ∀ y ∈ s.contexts, y.scope = x.scope →
      y.requestedAt ≤ c.requestedAt ∨ x.requestedAt ≤ y.requestedAt
  replacement : ∀ x ∈ s.contexts, ∀ c ∈ s.contexts, x.refreshAfterEntry = some c.id →
    c.refreshAfterEntry = none
  spacing : ∀ x ∈ s.contexts, x.parents = [] → ∀ y ∈ s.contexts, y.scope = x.scope →
    y.requestedAt < x.requestedAt → y.requestedAt + minute ≤ x.requestedAt ∧
      (y.requestedAt + fiveMinutes ≤ x.requestedAt ∨
        y.circuitRejected ∧ ∃ at', y.completedAt = some at' ∧ at' < x.requestedAt)
  requesting : ∀ x ∈ s.contexts, ∀ y ∈ s.contexts, x.scope = y.scope → x.state = .requesting →
    y.state = .requesting → s.now - fiveMinutes < x.requestedAt →
    s.now - fiveMinutes < y.requestedAt → x = y

theorem mem_parents {x : ScenarioContext} {p : ℕ} (h : x.refreshAfterEntry = some p) :
    p ∈ x.parents := by
  simp [ScenarioContext.parents, List.reduceOption_mem_iff, h]

theorem Sound.paced (hs : Sound s) : Paced s := by
  refine ⟨hs.seen, fun x hx y hy p hpx hpy => ?_, fun x hx p hp => ?_, fun x hx c hc hentry => ?_,
    fun x hx hnone y hy hscope hlt => hs.chain.spacing hx hy hnone hscope hlt,
    fun x hx y hy hscope hxstate hystate hxrecent hyrecent => ?_⟩
  · obtain ⟨c, hc, hid, hscope, hlt, hnewest, -⟩ := hs.chain.parent hx hpx
    obtain ⟨d, hd, hid', hscope', hlt', hnewest', -⟩ := hs.chain.parent hy hpy
    obtain rfl := hs.chain.id_inj hc hd (hid.trans hid'.symm)
    have hxy : y.scope = x.scope := hscope'.symm.trans hscope
    refine hs.chain.requestedAt_inj hx hy hxy ?_
    rcases hnewest y hy hxy with h | h <;> rcases hnewest' x hx hxy.symm with h' | h' <;> omega
  · obtain ⟨c, hc, hid, hscope, hlt, hnewest, -⟩ := hs.chain.parent hx hp
    exact ⟨c, hc, hid, hscope, hlt, hnewest⟩
  · obtain ⟨d, hd, hid, -, -, -, hreplacement⟩ := hs.chain.parent hx (mem_parents hentry)
    obtain rfl := hs.chain.id_inj hd hc hid
    exact hreplacement hentry
  · have hxnow := hs.before x hx
    have hynow := hs.before y hy
    rcases lt_trichotomy x.requestedAt y.requestedAt with hlt | heq | hlt
    · have hspaced := hs.chain.requesting hy hx hscope hlt hxstate
      omega
    · exact hs.chain.requestedAt_inj hx hy hscope.symm heq.symm
    · have hspaced := hs.chain.requesting hx hy hscope.symm hlt hystate
      omega

theorem sound_initial : Sound {} := by
  refine ⟨trivial, fun x hx => ?_, fun x hx => ?_, fun i scope hi => ?_, fun i x groups hi => ?_,
    fun x hx => ?_⟩
  · exact absurd hx List.not_mem_nil
  · exact absurd hx List.not_mem_nil
  · cases hi
  · cases hi
  · exact absurd hx List.not_mem_nil

/-- Every run of claims, completions and retirements, from empty tables, keeps the bound. -/
theorem admission_of_run {es : List Event} (hrun : Transition.run Db.step {} es = some t) :
    Paced t := by
  have hsound : Sound t := Transition.invariant (fun _ _ _ => sound_step) sound_initial hrun
  exact hsound.paced

namespace Sample

def demo : Scope := ⟨1, 2, .demo⟩

def claim (i : ℕ) (input : ClaimInput) : List Event :=
  [.lock i demo, .insert i input 0 fun _ _ => 0, .commit i]

/-- A retired pair is replaced once, the replacement fails, and the next call waits. -/
def replaced : List Event :=
  claim 0 { id := 1, capturedAt := 0 } ++ [.finish 1 demo (some ⟨.pair, none⟩) none, .retire 1 demo] ++
    claim 1 { id := 2, capturedAt := 0, afterEntryContextId := some 1 } ++
    [.finish 2 demo none (some "AI_TIMEOUT"), .lock 2 demo,
      .insert 2 { id := 3, capturedAt := 0, afterEntryContextId := some 1 } 0 fun _ _ => 0,
      .tick 300000000] ++
    claim 0 { id := 4, capturedAt := 300000000 }

end Sample

theorem admission_of_run_replaced : ∃ t, Transition.run Db.step {} Sample.replaced = some t ∧
    t.contexts.map (fun c => (c.id, c.parents)) = [(4, []), (2, [1]), (1, [])] ∧ Paced t := by
  have hcontexts : (Transition.run Db.step {} Sample.replaced).map
      (fun t => t.contexts.map fun c => (c.id, c.parents)) =
        some [(4, []), (2, [1]), (1, [])] := by decide +kernel
  obtain ⟨t, hrun, ht⟩ := Option.map_eq_some_iff.mp hcontexts
  exact ⟨t, hrun, ht, admission_of_run hrun⟩

end ScalpingBot.Admission
