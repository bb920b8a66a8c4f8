import OtelFleet.Opamp.Theorems.Writes

-- What the server remembers of an agent, apart from its row.
namespace Opamp

open Store (UUID InstanceUID Fleet Agent)

namespace Registry

variable {r : Registry} {π : AgentConn → α}

theorem heap_modifyBoth (r : Registry) (ref ref' : Ref) (f : AgentConn → AgentConn) :
    (r.modifyBoth ref f).heap ref' =
      let st := if ref' = ref then f (r.heap ref') else r.heap ref'
      if r.ref? (r.heap ref).instanceUID = some ref' then f st else st := by
  have hfirst : (r.modify ref f).heap ref' = if ref' = ref then f (r.heap ref') else r.heap ref' := by
    simp only [modify, Function.update_apply]
    split_ifs with h
    · rw [h]
    · rfl
  have href : (r.modify ref f).ref? (r.heap ref).instanceUID = r.ref? (r.heap ref).instanceUID := rfl
  unfold modifyBoth update
  rw [href]
  cases r.ref? (r.heap ref).instanceUID
  case none => simpa using hfirst
  case some live =>
    simp only [Option.some.injEq]
    by_cases h : live = ref'
    · subst h
      rw [if_pos rfl, ← hfirst]
      exact Function.update_self ..
    · rw [if_neg h, ← hfirst]
      exact Function.update_of_ne (Ne.symm h) ..

theorem ref?_modifyBoth : (r.modifyBoth ref f).ref? uid = r.ref? uid := by
  unfold modifyBoth update
  split
  all_goals rfl

theorem heap_drainDirtySeen (hπ : ∀ st : AgentConn, π { st with dirtySeen := false } = π st) (ref : Ref) :
    π (r.drainDirtySeen.2.heap ref) = π (r.heap ref) := by
  rw [heap_drainDirtySeen_eq]
  split_ifs
  · exact hπ _
  · rfl

theorem ref?_drainDirtySeen : r.drainDirtySeen.2.ref? uid = r.ref? uid := by
  unfold ref?
  rw [drainDirtySeen_touched.byUID]

theorem ref?_put : (r.put ref).ref? uid = if uid = (r.heap ref).instanceUID then some ref else r.ref? uid := by
  simp only [ref?, put, List.lookup_cons, Assoc.lookup_filter_ne]
  by_cases h : uid = (r.heap ref).instanceUID
  · simp [h]
  · simp [h, beq_eq_false_iff_ne.mpr h]

theorem ref?_of_removeConn (h : (r.removeConn conn).2.ref? uid = some ref) : r.ref? uid = some ref := by
  obtain ⟨-, hby⟩ | ⟨uid', st, -, -, -, -, hby⟩ := r.removeConn_cases conn
  all_goals
    unfold ref? at h
    rw [hby] at h
  · exact h
  · rw [Assoc.lookup_filter_ne] at h
    split_ifs at h
    exact h

end Registry

section Held

-- A state of the agent that the registry or the call has.
def Held (s : Server) (k : Call) (agentID : UUID) (ref : Ref) : Prop :=
  (s.registry.heap ref).agentID = agentID ∧
    ((∃ uid, s.registry.ref? uid = some ref) ∨ ∃ w ts, k = .work w ts ∧ w.st = ref)

def Remembers {α : Type} (π : AgentConn → α) (s : Server) (k : Call) (agentID : UUID) (v : α) : Prop :=
  ∀ ref, Held s k agentID ref → π (s.registry.heap ref) = v

variable {s s' : Server}

theorem Held.lt (h : Held s k agentID ref) (hG : s.Grounded) (hk : k.Knows s) : ref < s.registry.next := by
  obtain ⟨-, ⟨uid, huid⟩ | ⟨w, ts, rfl, rfl⟩⟩ := h
  · exact (hG.indexed _ (Registry.mem_of_ref? huid)).left
  · exact hk

theorem Call.Registers.ref?_cases (h : Call.Registers x s k r) (uid : InstanceUID) :
    r.ref? uid = s.registry.ref? uid ∨
      (∃ w ts, k = .work w ts ∧ r.ref? uid = some w.st ∧ uid = (w.agent s).instanceUID) ∨
      ∃ conn, k = .close conn ∧ r = (s.registry.removeConn conn).2 := by
  cases h
  case task w t ts =>
    obtain ⟨rfl, hr⟩ | ⟨f, hf, hr⟩ | ⟨-, -, hr⟩ := t.register_cases w s.registry
    · rw [hr, Registry.ref?_put]
      split_ifs with huid
      · exact .inr (.inl ⟨w, _, rfl, rfl, huid⟩)
      · exact .inl rfl
    · exact .inl (by rw [hr, Registry.ref?_modifyBoth])
    · exact .inl (by rw [hr])
  case start | same => exact .inl rfl
  case close conn => exact .inr (.inr ⟨conn, rfl, rfl⟩)
  case drain => exact .inl Registry.ref?_drainDirtySeen

theorem Call.Registers.ref? (h : Call.Registers x s k r) (href : r.ref? uid = some ref) :
    s.registry.ref? uid = some ref ∨ ∃ w ts, k = .work w ts ∧ w.st = ref := by
  obtain hr | ⟨w, ts, rfl, hr, -⟩ | ⟨conn, rfl, rfl⟩ := h.ref?_cases uid
  · exact .inl (hr ▸ href)
  · exact .inr ⟨w, ts, rfl, Option.some.inj (hr.symm.trans href)⟩
  · exact .inl (Registry.ref?_of_removeConn href)

theorem Server.Grounded.instanceUID_eq (hG : s.Grounded) (href : ref < s.registry.next)
    (href' : ref' < s.registry.next) (hid : (s.registry.heap ref).agentID = (s.registry.heap ref').agentID) :
    (s.registry.heap ref).instanceUID = (s.registry.heap ref').instanceUID := by
  have heq := List.inj_on_of_nodup_map hG.ids (hG.states ref href) (hG.states ref' href') hid
  exact congrArg (·.2.1) heq

variable {α : Type} {π : AgentConn → α}

theorem Call.Registers.heap (h : Call.Registers x s k r) (hG : s.Grounded) (hk : k.Knows s) (href : ref < s.registry.next)
    (hseen : ∀ st : AgentConn, π { st with dirtySeen := false } = π st)
    (hquiet : ∀ w t ts f, k = .work w (t :: ts) → t.note? = some f →
      (w.agent s).agentID = (s.registry.heap ref).agentID → ∀ st, π (f st) = π st) :
    π (r.heap ref) = π (s.registry.heap ref) := by
  cases h
  case task w t ts =>
    obtain ⟨rfl, hr⟩ | ⟨f, hf, hr⟩ | ⟨-, -, hr⟩ := t.register_cases w s.registry
    · rw [hr]
      rfl
    · rw [hr, Registry.heap_modifyBoth]
      by_cases hid : (w.agent s).agentID = (s.registry.heap ref).agentID
      case pos =>
        have hkeep := hquiet w t ts f rfl hf hid
        simp only
        split_ifs
        all_goals simp only [hkeep]
      case neg =>
        -- The states that are changed are those of another agent.
        have hne : ref ≠ w.st := by
          rintro rfl
          exact hid rfl
        have hlive : s.registry.ref? (s.registry.heap w.st).instanceUID ≠ some ref := by
          intro hlive
          have huid := (hG.indexed _ (Registry.mem_of_ref? hlive)).right
          exact hid (hG.eq_of_instanceUID (hG.states _ hk) (hG.states _ href) huid.symm).left
        simp only [if_neg hne, if_neg hlive]
    · rw [hr]
  case start => rw [Registry.heap_new_of_lt _ href]
  case close => rw [Registry.heap_removeConn]
  case drain => exact Registry.heap_drainDirtySeen hseen ref
  case same => rfl

variable [Runtime]

theorem Call.Step.work (hs : Call.Step svc x s k (.work w' ts') s') :
    (∃ w t ts, k = .work w (t :: ts) ∧ w'.st = w.st) ∨
      w'.st = s.registry.next ∧ ∃ conn auth msg now known newConn st s₁,
        Call.Finds x s k conn auth msg now known newConn st s₁ ∧
          s'.registry.heap s.registry.next = st.attach conn msg now := by
  cases hs
  case start conn auth msg now known newConn st s₁ hm hfinds hw =>
    refine .inr ⟨by rw [hw]; exact congrArg Registry.next hfinds.registry_eq, conn, auth, msg, now, known, newConn, st, s₁,
      hfinds, ?_⟩
    rw [← hfinds.registry_eq]
    exact Registry.heap_new_self _
  case task w t ts new resp ht => exact .inl ⟨w, t, ts, rfl, rfl⟩
  case drain hr hk' =>
    obtain hk' | ⟨seen, hk'⟩ := hk'
    all_goals cases hk'

theorem Held.step (h : Held (k.step svc x s).2 (k.step svc x s).1 agentID ref) (hG : s.Grounded) (hk : k.Knows s) :
    Held s k agentID ref ∨
      ref = s.registry.next ∧ ∃ conn auth msg now known newConn st s₁,
        Call.Finds x s k conn auth msg now known newConn st s₁ ∧ st.agentID = agentID ∧
          (k.step svc x s).2.registry.heap ref = st.attach conn msg now := by
  have hs : Call.Step svc x s k _ _ := Call.step_spec k
  have hheld (hold : (∃ uid, s.registry.ref? uid = some ref) ∨ ∃ w ts, k = .work w ts ∧ w.st = ref)
      (hlt : ref < s.registry.next) : Held s k agentID ref := by
    refine ⟨?_, hold⟩
    rw [← (hs.extends.heap ref hlt).agentID]
    exact h.left
  obtain ⟨uid, href⟩ | ⟨w', ts', hk', rfl⟩ := h.right
  · obtain href | ⟨w, ts, rfl, rfl⟩ := (Call.step_registers k).ref? href
    · exact .inl (hheld (.inl ⟨uid, href⟩) (hG.indexed _ (Registry.mem_of_ref? href)).left)
    · exact .inl (hheld (.inr ⟨w, ts, rfl, rfl⟩) hk)
  · rw [hk'] at hs
    obtain ⟨w, t, ts, rfl, hst⟩ | ⟨hst, conn, auth, msg, now, known, newConn, st, s₁, hfinds, hheap⟩ := hs.work
    · exact .inl (hheld (.inr ⟨w, _, rfl, hst.symm⟩) (hst ▸ hk))
    · refine .inr ⟨hst, conn, auth, msg, now, known, newConn, st, s₁, hfinds, ?_, hst ▸ hheap⟩
      have hid := h.left
      rw [hst, hheap] at hid
      exact hid

theorem Remembers.step (h : Remembers π s k agentID v) (hG : s.Grounded) (hk : k.Knows s)
    (hseen : ∀ st : AgentConn, π { st with dirtySeen := false } = π st)
    (hquiet : ∀ w t ts f, k = .work w (t :: ts) → t.note? = some f → (w.agent s).agentID = agentID →
      ∀ st, π (f st) = π st)
    (hload : ∀ {conn auth msg now known newConn st s₁}, Call.Finds x s k conn auth msg now known newConn st s₁ →
      st.agentID = agentID → π (st.attach conn msg now) = v) :
    Remembers π (k.step svc x s).2 (k.step svc x s).1 agentID v := by
  intro ref hheld
  obtain hold | ⟨-, conn, auth, msg, now, known, newConn, st, s₁, hfinds, hid, hheap⟩ := hheld.step hG hk
  · rw [(Call.step_registers k).heap hG hk (hold.lt hG hk) hseen fun w t ts f hk hf hid =>
      hquiet w t ts f hk hf (hid.trans hold.left)]
    exact h ref hold
  · rw [hheap]
    exact hload hfinds hid

theorem Remembers.task (h : Remembers π s (.work w (t :: ts)) agentID v)
    (hG : s.Grounded) (hk : w.st < s.registry.next) (hseen : ∀ st : AgentConn, π { st with dirtySeen := false } = π st)
    (hnote : t.note? = none) :
    Remembers π ((Call.work w (t :: ts)).step svc x s).2 ((Call.work w (t :: ts)).step svc x s).1 agentID v := by
  refine h.step hG hk hseen ?_ fun hfinds => by cases hfinds
  rintro w' t' ts' f hw hf
  cases hw
  rw [hnote] at hf
  cases hf

theorem Remembers.note (h : Remembers π s (.work w (t :: ts)) agentID v) (hG : s.Grounded) (hk : w.st < s.registry.next)
    (hf : t.note? = some f) (hid : (w.agent s).agentID = agentID) (g : α → α) (hg : ∀ st, π (f st) = g (π st))
    (hgg : g (g v) = g v) :
    Remembers π ((Call.work w (t :: ts)).step svc x s).2 ((Call.work w (t :: ts)).step svc x s).1 agentID (g v) := by
  intro ref hheld
  obtain hold | ⟨-, conn, auth, msg, now, known, newConn, st, s₁, hfinds, -⟩ := hheld.step hG hk
  case inr => cases hfinds
  case inl =>
    have hv := h ref hold
    have hlt : ref < s.registry.next := hold.lt hG hk
    have hregistry : ((Call.work w (t :: ts)).step svc x s).2.registry = s.registry.modifyBoth w.st f :=
      t.registry_run.trans (Task.register_of_note? hf)
    -- The state is the one of the call, or the one that the registry has.
    have hchanged : ref = w.st ∨ s.registry.ref? (s.registry.heap w.st).instanceUID = some ref := by
      obtain ⟨uid, huid⟩ | ⟨w', ts', hwork, rfl⟩ := hold.right
      · refine .inr ?_
        rw [← hG.instanceUID_eq hlt hk (hold.left.trans hid.symm), (hG.indexed _ (Registry.mem_of_ref? huid)).right]
        exact huid
      · cases hwork
        exact .inl rfl
    rw [hregistry, Registry.heap_modifyBoth]
    simp only
    split_ifs with hlive href href
    · rw [hg, hg, hv, hgg]
    · rw [hg, hv]
    · rw [hg, hv]
    · exact (hchanged.elim href hlive).elim

end Held

section Aside

def Call.isMessage : Call → Bool
  | receive .. | lookup .. | enroll .. | work .. => true
  | _ => false

def Call.isClose : Call → Bool
  | close _ => true
  | _ => false

variable {s : Server} {k k' : Call} {agentID : UUID} {ref : Ref}

theorem Call.Registers.aside (h : Call.Registers x s k r) (hk : ¬k.isMessage) (href : r.ref? uid = some ref) :
    s.registry.ref? uid = some ref := by
  obtain href | ⟨w, ts, rfl, -⟩ := h.ref? href
  · exact href
  · exact absurd rfl hk

theorem Call.Registers.kept (h : Call.Registers x s k r) (hclose : ¬k.isClose) (href : s.registry.ref? uid = some ref) :
    r.ref? uid = some ref ∨ ∃ w ts, k = .work w ts ∧ r.ref? uid = some w.st ∧ uid = (w.agent s).instanceUID := by
  obtain hr | hr | ⟨conn, rfl, -⟩ := h.ref?_cases uid
  · exact .inl (hr.trans href)
  · exact .inr hr
  · exact absurd rfl hclose

def Registered (s : Server) (agentID : UUID) : Prop :=
  ∃ uid ref, s.registry.ref? uid = some ref ∧ (s.registry.heap ref).agentID = agentID

variable [Runtime]

theorem Call.isMessage_step (h : ¬k.isMessage) : ¬(k.step svc x s).1.isMessage := by
  cases k
  case receive | lookup | enroll | work => exact absurd rfl h
  case push rest =>
    cases rest
    all_goals
      simp only [Call.step]
      try split
    all_goals simp [Call.isMessage]
  all_goals
    simp only [Call.step]
    repeat' split
  all_goals simp [Call.isMessage]

theorem Call.isClose_step : ¬(k.step svc x s).1.isClose := by
  have hs : Call.Step svc x s k _ _ := Call.step_spec k
  generalize (k.step svc x s).1 = k', (k.step svc x s).2 = s' at hs
  cases hs
  case drain hr hk' =>
    obtain rfl | ⟨seen, rfl⟩ := hk'
    all_goals simp [Call.isClose]
  all_goals simp [Call.isClose]

theorem Registered.step (h : Registered s agentID) (hG : s.Grounded) (hk : k.Knows s) (hclose : ¬k.isClose) :
    Registered (k.step svc x s).2 agentID := by
  obtain ⟨uid, ref, href, hid⟩ := h
  obtain ⟨hlt, huid⟩ := hG.indexed _ (Registry.mem_of_ref? href)
  have hext : s.Extends (k.step svc x s).2 := (Call.step_spec k).extends
  have hregisters : Call.Registers x s k (k.step svc x s).2.registry := Call.step_registers k
  obtain hkept | ⟨w, ts, rfl, hkept, huid'⟩ := hregisters.kept hclose href
  · exact ⟨uid, ref, hkept, (hext.heap ref hlt).agentID.trans hid⟩
  · refine ⟨uid, w.st, hkept, (hext.heap w.st hk).agentID.trans ?_⟩
    rw [← hid]
    exact (hG.eq_of_instanceUID (hG.states _ hk) (hG.states _ hlt) (huid'.symm.trans huid.symm)).left

theorem Held.aside (h : Held (k'.step svc x s).2 k agentID ref) (hG : s.Grounded) (hk : k.Knows s) (hk' : ¬k'.isMessage) :
    Held s k agentID ref := by
  have hext : s.Extends (k'.step svc x s).2 := (Call.step_spec k').extends
  have hheld (hold : (∃ uid, s.registry.ref? uid = some ref) ∨ ∃ w ts, k = .work w ts ∧ w.st = ref)
      (hlt : ref < s.registry.next) : Held s k agentID ref :=
    ⟨(hext.heap ref hlt).agentID.symm.trans h.left, hold⟩
  obtain ⟨uid, href⟩ | ⟨w, ts, rfl, rfl⟩ := h.right
  · have hold := (Call.step_registers k').aside hk' href
    exact hheld (.inl ⟨uid, hold⟩) (hG.indexed _ (Registry.mem_of_ref? hold)).left
  · exact hheld (.inr ⟨w, ts, rfl, rfl⟩) hk

theorem Remembers.aside (h : Remembers π s k agentID v) (hG : s.Grounded)
    (hk : k.Knows s) (hk' : ¬k'.isMessage) (hknows : k'.Knows s)
    (hseen : ∀ st : AgentConn, π { st with dirtySeen := false } = π st) :
    Remembers π (k'.step svc x s).2 k agentID v := by
  intro ref hheld
  have hold := hheld.aside hG hk hk'
  rw [(Call.step_registers k').heap hG hknows (hold.lt hG hk) hseen]
  · exact h ref hold
  · rintro w t ts f rfl
    exact absurd rfl hk'

end Aside
end Opamp
