import OtelFleet.Otelfleetctl.Apply

-- When a plan is empty.
namespace Otelfleetctl

section Steps

theorem bind_eq_ok {f : α → Step β} : (x >>= f) = .ok b ↔ ∃ a, x = .ok a ∧ f a = .ok b := by
  cases x
  case error e | ok a => simp [bind, Except.bind]

theorem foldlM_cons_eq_ok {f : Run → α → Step Run} {r r' : Run} :
    (a :: as).foldlM f r = .ok r' ↔ ∃ r₁, f r a = .ok r₁ ∧ as.foldlM f r₁ = .ok r' := by
  rw [List.foldlM_cons, bind_eq_ok]

theorem call_eq_ok {r r' : Run} :
    r.call result wrap = .ok (x, r') ↔
      result.1 = .ok x ∧ r' = { r with server := result.2, calls := r.calls + 1 } := by
  unfold Run.call
  cases result.1 <;> simp [eq_comm]

theorem ne_of_append (h : ys = xs ++ [x]) : ys ≠ xs := by
  rw [h]
  simp

theorem foldl_add_grows (changes : List PipelineSpec) (change : PipelineSpec → Change) (r : Run) :
    r.changes <+: (changes.foldl (fun r ps => r.add (change ps)) r).changes := by
  induction changes generalizing r
  case nil => exact List.prefix_rfl
  case cons ps rest hi => exact (List.prefix_append _ _).trans (hi (r.add (change ps)))

end Steps

-- A part of a run plans nothing exactly in a given situation, and then leaves the server alone.
structure Quietly {α : Type} (f : Run → α → Step Run) (Q : Server → α → Prop) : Prop where
  grows : ∀ {r a r'}, f r a = .ok r' → r.changes <+: r'.changes
  quiet : ∀ {r a}, Q r.server a → ∃ r', f r a = .ok r' ∧ r'.changes = r.changes ∧ r'.server = r.server
  loud : ∀ {r a r'}, f r a = .ok r' → r'.changes = r.changes → Q r.server a

namespace Quietly

variable {Q : Server → α → Prop}

theorem server_eq (h : Quietly f Q) (hf : f r a = .ok r') (hc : r'.changes = r.changes) : r'.server = r.server := by
  obtain ⟨r'', hf', _, hs⟩ := h.quiet (h.loud hf hc)
  cases hf.symm.trans hf'
  exact hs

theorem foldlM_grows (h : Quietly f Q) {as : List α} (hf : as.foldlM f r = .ok r') : r.changes <+: r'.changes := by
  induction as generalizing r
  case nil =>
    cases hf
    exact List.prefix_rfl
  case cons a as hi =>
    obtain ⟨r₁, ha, hf⟩ := foldlM_cons_eq_ok.mp hf
    exact (h.grows ha).trans (hi hf)

theorem foldlM (h : Quietly f Q) : Quietly (fun r (as : List α) => as.foldlM f r) fun s as => ∀ a ∈ as, Q s a where
  grows := h.foldlM_grows
  quiet := by
    intro r as hq
    induction as generalizing r
    case nil => exact ⟨r, rfl, rfl, rfl⟩
    case cons a as hi =>
      obtain ⟨r₁, hf, hc, hs⟩ := h.quiet (hq a (by simp))
      obtain ⟨r₂, hf', hc', hs'⟩ := @hi r₁ fun b hb => hs ▸ hq b (by simp [hb])
      exact ⟨r₂, foldlM_cons_eq_ok.mpr ⟨r₁, hf, hf'⟩, hc'.trans hc, hs'.trans hs⟩
  loud := by
    intro r as r' hf hc
    induction as generalizing r
    case nil => simp
    case cons a as hi =>
      obtain ⟨r₁, ha, hf⟩ := foldlM_cons_eq_ok.mp hf
      -- Nothing is taken back, so neither the first part nor the others have planned anything.
      have hle : r₁.changes <+: r.changes := hc ▸ h.foldlM_grows hf
      have heq : r₁.changes = r.changes := hle.eq_of_length_le (h.grows ha).length_le
      refine List.forall_mem_cons.mpr ⟨h.loud ha heq, ?_⟩
      rw [← h.server_eq ha heq]
      exact hi hf (hc.trans heq.symm)

end Quietly

section Parts

variable [Runtime] {c : Client} {dryRun : Bool} {cust : Customer}

theorem addPipeline_changes {ps : PipelineSpec} (h : addPipeline c dryRun cust r ps = .ok r') :
    r'.changes = r.changes ++ [.createPipeline ps.name cust.slug] := by
  cases dryRun
  case true =>
    cases h
    rfl
  case false =>
    obtain ⟨⟨p, r₁⟩, h₁, h⟩ := bind_eq_ok.mp h
    obtain ⟨⟨_, r₂⟩, h₂, h⟩ := bind_eq_ok.mp h
    cases h
    obtain ⟨_, rfl⟩ := call_eq_ok.mp h₁
    obtain ⟨_, rfl⟩ := call_eq_ok.mp h₂
    rfl

theorem addVersion_changes {ps : PipelineSpec} (h : addVersion c dryRun cust p r ps = .ok r') :
    r'.changes = r.changes ++ [.newVersion cust.slug ps.name] := by
  cases dryRun
  case true =>
    cases h
    rfl
  case false =>
    obtain ⟨⟨version, r₁⟩, h₁, h⟩ := bind_eq_ok.mp h
    obtain ⟨⟨_, r₂⟩, h₂, h⟩ := bind_eq_ok.mp h
    cases h
    obtain ⟨_, rfl⟩ := call_eq_ok.mp h₁
    obtain ⟨_, rfl⟩ := call_eq_ok.mp h₂
    rfl

omit [Runtime] in
theorem reconcile_changes {cs : CustomerSpec} (h : reconcile dryRun cust r cs = .ok r') :
    ((updates cust cs).keys = [] ∧ r' = r) ∨
      (updates cust cs).keys ≠ [] ∧ r'.changes = r.changes ++ [.updateCustomer cs.slug (updates cust cs).keys] := by
  unfold reconcile at h
  dsimp only at h
  split_ifs at h with hk
  · cases h
    exact .inl ⟨hk, rfl⟩
  · cases h
    exact .inr ⟨hk, rfl⟩
  · obtain ⟨⟨_, r₁⟩, h₁, h⟩ := bind_eq_ok.mp h
    cases h
    obtain ⟨_, rfl⟩ := call_eq_ok.mp h₁
    exact .inr ⟨hk, rfl⟩

theorem ensureCustomer_changes {cs : CustomerSpec} {found : Option Customer}
    (h : ensureCustomer c dryRun existing r cs = .ok (found, r')) :
    (∃ cust, findCustomer existing cs = some cust ∧ found = some cust ∧ r' = r) ∨
      findCustomer existing cs = none ∧ r'.changes = r.changes ++ [.createCustomer cs.name] := by
  unfold ensureCustomer at h
  split at h
  case _ cust hf =>
    cases h
    exact .inl ⟨cust, hf, rfl, rfl⟩
  case _ hf =>
    refine .inr ⟨hf, ?_⟩
    cases dryRun
    case true =>
      cases h
      rfl
    case false =>
      obtain ⟨⟨cust, r₁⟩, h₁, h⟩ := bind_eq_ok.mp h
      cases h
      obtain ⟨_, rfl⟩ := call_eq_ok.mp h₁
      rfl

def QuietPipeline (c : Client) (existing : List Api.Pipeline) (s : Server) (ps : PipelineSpec) : Prop :=
  ∃ p, existing.reverse.find? (·.name = ps.name) = some p ∧ unchanged c s p ps = .ok true

theorem applyPipeline_quietly (existing : List Api.Pipeline) :
    Quietly (applyPipeline c dryRun cust existing) (QuietPipeline c existing) where
  grows := by
    intro r ps r' h
    unfold applyPipeline at h
    split at h
    case _ => exact ⟨_, (addPipeline_changes h).symm⟩
    case _ p hp =>
      split at h
      case _ => cases h
      case _ =>
        cases h
        exact List.prefix_rfl
      case _ => exact ⟨_, (addVersion_changes h).symm⟩
  quiet := by
    rintro r ps ⟨p, hp, hu⟩
    refine ⟨r.skip cust.slug ps.name, ?_, rfl, rfl⟩
    simp only [applyPipeline, hp, hu]
  loud := by
    intro r ps r' h hc
    unfold applyPipeline at h
    split at h
    case _ => exact absurd hc (ne_of_append (addPipeline_changes h))
    case _ p hp =>
      split at h
      case _ => cases h
      case _ hu => exact ⟨p, hp, hu⟩
      case _ => exact absurd hc (ne_of_append (addVersion_changes h))

theorem applyPipelines_quietly : Quietly (applyPipelines c dryRun cust) fun s specs =>
    ∃ existing, s.listPipelines cust.id = .ok existing ∧ ∀ ps ∈ specs, QuietPipeline c existing s ps where
  grows := by
    intro r specs r' h
    unfold applyPipelines at h
    split at h
    case _ => cases h
    case _ existing _ => exact (applyPipeline_quietly existing).foldlM_grows h
  quiet := by
    rintro r specs ⟨existing, hl, hq⟩
    simp only [applyPipelines, hl]
    exact (applyPipeline_quietly existing).foldlM.quiet hq
  loud := by
    intro r specs r' h hc
    unfold applyPipelines at h
    split at h
    case _ => cases h
    case _ existing hl => exact ⟨existing, hl, (applyPipeline_quietly existing).foldlM.loud h hc⟩

def QuietCustomer (c : Client) (existing : List Customer) (s : Server) (cs : CustomerSpec) : Prop :=
  ∃ cust, findCustomer existing cs = some cust ∧ (updates cust cs).keys = [] ∧
    ∃ pipelines, s.listPipelines cust.id = .ok pipelines ∧ ∀ ps ∈ cs.pipelines, QuietPipeline c pipelines s ps

theorem applyTo_grows (h : applyTo c dryRun cs (found, r) = .ok r') : r.changes <+: r'.changes := by
  cases found
  case none =>
    cases h
    exact foldl_add_grows _ _ r
  case some cust =>
    obtain ⟨r₁, h₁, hrest⟩ := bind_eq_ok.mp h
    refine .trans ?_ (applyPipelines_quietly.grows hrest)
    obtain ⟨_, rfl⟩ | ⟨_, hc⟩ := reconcile_changes h₁
    · exact List.prefix_rfl
    · exact ⟨_, hc.symm⟩

theorem applyCustomer_quietly (existing : List Customer) :
    Quietly (applyCustomer c dryRun existing) (QuietCustomer c existing) where
  grows := by
    intro r cs r' h
    obtain ⟨⟨found, r₁⟩, h₁, hrest⟩ := bind_eq_ok.mp h
    refine .trans ?_ (applyTo_grows hrest)
    obtain ⟨cust, _, _, rfl⟩ | ⟨_, hc⟩ := ensureCustomer_changes h₁
    · exact List.prefix_rfl
    · exact ⟨_, hc.symm⟩
  quiet := by
    rintro r cs ⟨cust, hf, hk, hp⟩
    obtain ⟨r', h, hc, hs⟩ := (@applyPipelines_quietly _ c dryRun _).quiet hp
    refine ⟨r', ?_, hc, hs⟩
    refine bind_eq_ok.mpr ⟨(some cust, r), ?_, bind_eq_ok.mpr ⟨r, ?_, h⟩⟩
    · simp only [ensureCustomer, hf]
    · simp only [reconcile, hk, if_true]
  loud := by
    intro r cs r' h hc
    obtain ⟨⟨found, r₁⟩, h₁, hrest⟩ := bind_eq_ok.mp h
    obtain ⟨cust, hf, hfound, hr⟩ | ⟨_, hc₁⟩ := ensureCustomer_changes h₁
    case inl =>
      rw [hfound, hr] at hrest
      obtain ⟨r₂, h₂, hlast⟩ := bind_eq_ok.mp hrest
      obtain ⟨hk, rfl⟩ | ⟨_, hc₂⟩ := reconcile_changes h₂
      · exact ⟨cust, hf, hk, applyPipelines_quietly.loud hlast hc⟩
      · have hle := applyPipelines_quietly.grows hlast
        rw [hc, hc₂] at hle
        simpa using hle.length_le
    case inr =>
      have hle := applyTo_grows hrest
      rw [hc, hc₁] at hle
      simpa using hle.length_le

theorem apply_quiet_iff :
    (∃ r, apply c dryRun spec s = .ok r ∧ r.changes = []) ↔
      ∀ cs ∈ spec.customers, QuietCustomer c s.listCustomers s cs := by
  have h := (@applyCustomer_quietly _ c dryRun s.listCustomers).foldlM
  constructor
  · rintro ⟨r, hr, hc⟩
    exact h.loud hr hc
  · intro hq
    obtain ⟨r, hr, hc, _⟩ := @Quietly.quiet _ _ _ h { server := s } spec.customers hq
    exact ⟨r, hr, hc⟩

end Parts

end Otelfleetctl
