import OtelFleet.Opamp.Theorems.Topics
import OtelFleet.Opamp.Theorems.Enrollment

-- The tokens that agents are offered in place of the one that they enrolled with.
namespace Opamp

open Store (UUID Hash InstanceUID Fleet Agent)
open Interleave (System Event Config)

section Answers

structure Answer where
  conn : ConnID
  agentID : UUID
  viaAgentToken : Bool
  accepts : Bool
  resp : ServerToAgent

def Answer.offers (a : Answer) : Bool :=
  a.resp.connectionSettings.isSome

def answers (_ : Draw) (s : Server) : Call → List Answer
  | .work w [] =>
    [{ conn := w.conn
       agentID := (w.agent s).agentID
       viaAgentToken := w.auth.viaAgentToken
       accepts := (w.agent s).accepts acceptsOpAMPConnectionSettings
       resp := w.resp }]
  | _ => []

def answersOn (t : List Answer) (conn : ConnID) (uid : InstanceUID) : List Answer :=
  t.filter fun a => a.conn = conn ∧ a.resp.instanceUID = uid

def ServerToAgent.token? (resp : ServerToAgent) : Option String :=
  resp.connectionSettings.bind fun settings => cutBearer settings.authorization

def lastToken [Runtime] (before : Hash) (t : List Answer) (id : UUID) : Hash :=
  (t.filter (·.agentID = id)).foldl (fun hash a => (a.resp.token?.map Tenants.hashAPIKey).getD hash) before

variable {id : UUID}

theorem cutBearer_append (token : String) : cutBearer ("Bearer " ++ token) = some token := by
  unfold cutBearer
  simp only [String.toList_append]
  rw [if_pos (by simp), List.drop_left]
  simp

theorem mem_answersOn : a ∈ answersOn t conn uid ↔ a ∈ t ∧ a.conn = conn ∧ a.resp.instanceUID = uid := by
  simp [answersOn]

theorem answersOn_concat : answersOn (t ++ [a]) conn uid =
    answersOn t conn uid ++ if a.conn = conn ∧ a.resp.instanceUID = uid then [a] else [] := by
  unfold answersOn
  rw [List.filter_append]
  congr 1
  simp only [List.filter_cons, List.filter_nil, decide_eq_true_eq]

theorem lastToken_concat [Runtime] : lastToken before (t ++ [a]) id =
    if a.agentID = id then (a.resp.token?.map Tenants.hashAPIKey).getD (lastToken before t id) else lastToken before t id := by
  unfold lastToken
  rw [List.filter_append, List.foldl_append]
  by_cases h : a.agentID = id <;> simp [h]

end Answers

section Tasks

def Task.isToken : Task → Bool
  | checkToken | setAgentToken | offerToken _ => true
  | _ => false

def Work.mayOffer (w : Work) : Bool :=
  w.newConn ∧ ¬w.auth.viaAgentToken

-- What is left to do about the token of a message; it is done last.
inductive TokenPhase where
  | due
  | minting
  | offering (gen : Tenants.GeneratedKey)
  | done

def TokenPhase.tasks : TokenPhase → List Task
  | due => [.checkToken]
  | minting => [.setAgentToken]
  | offering gen => [.offerToken gen]
  | done => []

theorem Work.tasks_eq (w : Work) :
    ∃ pre, w.tasks = pre ++ (if w.mayOffer then TokenPhase.due else TokenPhase.done).tasks ∧ ∀ t ∈ pre, t.isToken = false := by
  have htasks : (if w.newConn ∧ ¬w.auth.viaAgentToken then [Task.checkToken] else []) =
      (if w.mayOffer then TokenPhase.due else TokenPhase.done).tasks := by
    unfold Work.mayOffer
    by_cases hcond : w.newConn ∧ ¬w.auth.viaAgentToken
    · rw [if_pos hcond, if_pos (decide_eq_true hcond)]
      rfl
    · rw [if_neg hcond, if_neg (by simpa using hcond)]
      rfl
  unfold Work.tasks
  refine ⟨_, by rw [htasks], fun t ht => ?_⟩
  simp only [List.mem_append] at ht
  obtain (((((ht | ht) | ht) | ht) | ht) | ht) | ht := ht
  all_goals
    repeat' split at ht
    all_goals simp only [List.not_mem_nil, List.mem_singleton] at ht
    all_goals simp [ht, Task.isToken]

theorem Task.tokenOffered_note? {t : Task} (ht : t.isToken = false) (h : t.note? = some f)
    (st : AgentConn) : (f st).tokenOffered = st.tokenOffered := by
  cases t
  case remoteConfigStatus rcs =>
    simp only [Task.note?] at h
    split_ifs at h
    cases h
    rfl
  case noteStatus | noteHealth =>
    cases h
    rfl
  case offerToken => cases ht
  all_goals cases h

variable [Runtime] {t t' : Task}

theorem Task.instanceUID_run : (t.run svc x s w).2.1.instanceUID = w.resp.instanceUID := by
  cases t
  all_goals
    simp only [Task.run]
    repeat' split
    all_goals rfl

theorem Task.connectionSettings_run (ht : t.isToken = false) :
    (t.run svc x s w).2.1.connectionSettings = w.resp.connectionSettings := by
  cases t
  case offerToken => cases ht
  all_goals
    simp only [Task.run]
    repeat' split
    all_goals rfl

omit [Runtime] in
theorem Task.Leads.isToken (h : t.Leads t') (ht : t.isToken = false) : t'.isToken = false := by
  cases h <;> first | rfl | cases ht

theorem Task.tokenHash_write? (ht : t.isToken = false) (h : t.write? x s w = some wr) (a : Agent) :
    (wr.change a).tokenHash = a.tokenHash := by
  cases t
  case setAgentToken => cases ht
  all_goals
    simp only [Task.write?, Option.some.injEq, reduceCtorEq] at h
    try
      subst h
      rfl

end Tasks

section Handing

variable {t : List Answer} {s s' : Server} {k k' : Call} {w : Work} {ts : List Task} {x : Draw}

def Answered (t : List Answer) (conn : ConnID) (uid : InstanceUID) : Prop :=
  ∃ a ∈ t, a.conn = conn ∧ a.resp.instanceUID = uid

def Clean (t : List Answer) (conn : ConnID) (uid : InstanceUID) : Prop :=
  ∀ a ∈ t, a.conn = conn → a.resp.instanceUID = uid → a.resp.connectionSettings = none

theorem says_setAgentToken {f : Fleet} {hash : Hash} {id : UUID} :
    Says (·.tokenHash) (f.setAgentToken id tokenPrefix hash now) id hash := by
  intro b hb hid
  obtain ⟨a, ha, rfl⟩ := List.mem_map.mp hb
  split_ifs at hid ⊢ with ha
  · rfl
  · exact absurd hid ha

def Work.accepts (s : Server) (w : Work) : Bool :=
  (w.agent s).accepts acceptsOpAMPConnectionSettings

def Server.NoOffer (s : Server) (conn : ConnID) (uid : InstanceUID) : Prop :=
  ∀ r ∈ s.sent, r.1 = conn → r.2.instanceUID = uid → r.2.connectionSettings = none

-- A message on a connection that is new to the agent, and is not authenticated by a token of an agent, finds neither a
-- state that says that a token was offered nor a connection on which one was.
def Untaken (s : Server) : Call → Prop
  | .receive conn msg =>
    ∀ auth ∈ s.accepted conn, ¬auth.viaAgentToken →
      (∀ prev ∈ s.registry.live? msg.instanceUID, prev.conn ≠ conn → ¬prev.tokenOffered) ∧
        ((∀ prev ∈ s.registry.live? msg.instanceUID, prev.conn ≠ conn) → s.NoOffer conn msg.instanceUID)
  | _ => True

variable [Runtime]

-- What holds in each phase. In a good run no token has been offered when one is due.
def TokenPhase.Holds (good : Prop) (s : Server) (w : Work) : TokenPhase → Prop
  | due => w.mayOffer ∧ w.resp.connectionSettings = none ∧ (good → w.accepts s → ¬(w.agent s).tokenOffered)
  | minting => w.mayOffer ∧ w.resp.connectionSettings = none ∧ w.accepts s
  | offering gen =>
    w.mayOffer ∧ w.resp.connectionSettings = none ∧ w.accepts s ∧
      ∃ digits random, gen = Tenants.generateAgentToken digits random
  | done =>
    (w.resp.connectionSettings.isSome → w.mayOffer ∧ w.accepts s) ∧
      (good → w.mayOffer → w.accepts s → w.resp.connectionSettings.isSome)

-- The hash that the row of the agent has, given the one of the last token that was offered.
def TokenPhase.hash (w : Work) (last : Hash) : TokenPhase → Hash
  | offering gen => gen.hash
  | done => (w.resp.token?.map Tenants.hashAPIKey).getD last
  | _ => last

structure Working (good : Prop) (last : UUID → Hash) (t : List Answer) (s : Server) (w : Work) (ts : List Task) : Prop where
  uid : (w.agent s).instanceUID = w.msg.instanceUID
  conn : (w.agent s).conn = w.conn
  resp : w.resp.instanceUID = w.msg.instanceUID
  old : ¬w.newConn → Answered t w.conn w.msg.instanceUID
  clean : good → w.mayOffer → Clean t w.conn w.msg.instanceUID
  phase : ∃ (p : TokenPhase) (pre : List Task), ts = pre ++ p.tasks ∧ (∀ t ∈ pre, t.isToken = false) ∧ p.Holds good s w ∧
    Says (·.tokenHash) s.fleet (w.agent s).agentID (p.hash w (last (w.agent s).agentID))

def Call.Hands (good : Prop) (last : UUID → Hash) (t : List Answer) (s : Server) : Call → Prop
  | lookup conn auth msg _ _ | enroll conn auth msg _ _ => good → ¬auth.viaAgentToken → Clean t conn msg.instanceUID
  | work w ts => Working good last t s w ts
  | _ => True

structure Handing (good : Prop) (before : UUID → Hash) (t : List Answer) (s : Server) (k : Call) : Prop where
  sent : ∀ a ∈ t, (a.conn, a.resp) ∈ s.sent
  rows : ∀ a ∈ t, ∃ row ∈ s.fleet.agents, row.id = a.agentID
  registered : ∀ uid ref, s.registry.ref? uid = some ref →
    Answered t (s.registry.heap ref).conn uid ∨ ∃ w ts, k = .work w ts ∧ w.st = ref
  call : k.Hands good (fun id => lastToken (before id) t id) t s
  row : ∀ id, (∀ w ts, k = .work w ts → (w.agent s).agentID ≠ id) →
    Says (·.tokenHash) s.fleet id (lastToken (before id) t id)
  absent : ∀ id, (∀ a ∈ s.fleet.agents, a.id ≠ id) → lastToken (before id) t id = []
  agentTokens : ∀ a ∈ t, a.viaAgentToken → ¬a.offers
  once : good → ∀ conn uid a, (answersOn t conn uid).head? = some a → ¬a.viaAgentToken → a.accepts →
    ((answersOn t conn uid).filter (·.offers)).length = 1

variable {good : Prop} {id : UUID} {p : TokenPhase}

theorem Call.Step.sent_subset (hs : Call.Step svc x s k k' s') : s.sent ⊆ s'.sent := by
  cases hs
  case stop => exact List.subset_append_left _ _
  case mismatch conn auth msg now known newConn st s₁ message hm hfinds =>
    have hsent : s₁.sent = s.sent := by
      cases hfinds
      all_goals rfl
    rw [← hsent]
    exact List.subset_append_left _ _
  case start hm hw hfinds =>
    cases hfinds
    all_goals exact List.Subset.refl _
  case task ht =>
    cases ht
    all_goals exact List.Subset.refl _
  case respond w =>
    obtain ⟨effects, he⟩ := s.deliver_eq w.conn (w.agent s).agentID w.resp
    rw [he]
    exact List.subset_append_left _ _
  case send customerID desired st rest =>
    obtain ⟨effects, he⟩ := s.deliver_eq st.conn st.agentID (configPush st desired)
    rw [he]
    exact List.subset_append_left _ _
  all_goals exact List.Subset.refl _

theorem says_tokenHash {hash : Hash} (h : Says (·.tokenHash) s.fleet id hash)
    (hk : ∀ w t ts, k = .work w (t :: ts) → (w.agent s).agentID = id → t.isToken = false)
    (habsent : (∀ a ∈ s.fleet.agents, a.id ≠ id) → hash = []) : Says (·.tokenHash) (k.step svc x s).2.fleet id hash := by
  refine (Call.step_stores k).said h (fun wr hwr hid a => ?_) (fun _ _ => rfl) fun hnew _ _ => (habsent hnew).symm
  unfold Call.write? at hwr
  split at hwr
  case h_1 w t ts => exact Task.tokenHash_write? (hk w t ts rfl ((Task.agentID_write? hwr).symm.trans hid)) hwr a
  case h_2 =>
    cases hwr
    rfl
  case h_3 =>
    split_ifs at hwr
    cases hwr
    rfl
  case h_4 => cases hwr

theorem TokenPhase.Holds.congr (h : p.Holds good s w) (hoffer : w'.mayOffer = w.mayOffer)
    (hsettings : w'.resp.connectionSettings = w.resp.connectionSettings) (haccepts : w'.accepts s' = w.accepts s)
    (hoffered : (w'.agent s').tokenOffered = (w.agent s).tokenOffered) : p.Holds good s' w' := by
  cases p
  all_goals
    simp only [Holds, hoffer, hsettings, haccepts, hoffered] at h ⊢
    exact h

theorem TokenPhase.hash_congr (hsettings : w'.resp.connectionSettings = w.resp.connectionSettings) (hash : Hash) :
    p.hash w' hash = p.hash w hash := by
  cases p
  case done => simp only [TokenPhase.hash, ServerToAgent.token?, hsettings]
  all_goals rfl

theorem Working.aside (h : Working good last t s w ts) (hG : s.Grounded) (hw : w.st < s.registry.next) (hknows : k'.Knows s)
    (hk' : ¬k'.isMessage) : Working good last t (k'.step svc x s).2 w ts := by
  have hsame : (w.agent s).Same (w.agent (k'.step svc x s).2) := (Call.step_spec k').extends.heap w.st hw
  have hoffered : (w.agent (k'.step svc x s).2).tokenOffered = (w.agent s).tokenOffered := by
    refine (Call.step_registers k').heap hG hknows hw (fun _ => rfl) ?_
    rintro w' t' ts' f rfl
    exact absurd rfl hk'
  obtain ⟨p, pre, hts, hpre, hholds, hsaid⟩ := h.phase
  refine ⟨hsame.instanceUID.trans h.uid, hsame.conn.trans h.conn, h.resp, h.old, h.clean, p, pre, hts, hpre,
    hholds.congr rfl rfl (hsame.accepts _) hoffered, ?_⟩
  rw [hsame.agentID]
  refine says_tokenHash hsaid ?_ fun habsent => ?_
  · rintro w' t' ts' rfl
    exact absurd rfl hk'
  · obtain ⟨a, ha, hid⟩ := (hG.states w.st hw).row
    exact absurd hid (habsent a ha)

theorem Handing.aside (h : Handing good before t s k) (hG : s.Grounded) (hk : k.Knows s) (hknows : k'.Knows s)
    (hk' : ¬k'.isMessage) : Handing good before t (k'.step svc x s).2 k := by
  have hext : s.Extends (k'.step svc x s).2 := (Call.step_spec k').extends
  have hagent {w : Work} {ts : List Task} (hw : k = .work w ts) :
      (w.agent (k'.step svc x s).2).agentID = (w.agent s).agentID := by
    subst hw
    exact (hext.heap w.st hk).agentID
  constructor
  case sent => exact fun a ha => (Call.step_spec k').sent_subset (h.sent a ha)
  case rows => exact fun a ha => hext.row (h.rows a ha)
  case registered =>
    intro uid ref href
    have href' := (Call.step_registers k').aside hk' href
    rw [(hext.heap ref (hG.indexed _ (Registry.mem_of_ref? href')).left).conn]
    exact h.registered uid ref href'
  case call =>
    have hcall := h.call
    cases k
    case work w ts => exact hcall.aside hG hk hknows hk'
    all_goals exact hcall
  case row =>
    intro id hid
    refine says_tokenHash (h.row id fun w ts hw => hagent hw ▸ hid w ts hw) ?_ (h.absent id)
    rintro w' t' ts' rfl
    exact absurd rfl hk'
  case absent => exact fun id habsent => h.absent id (hext.absent habsent)
  case agentTokens => exact h.agentTokens
  case once => exact h.once

theorem Handing.step_of_no_answer (h : Handing good before t s k) (hk : ∀ w, k ≠ .work w []) (hG : s.Grounded) (hknows : k.Knows s)
    (hcall : ((∀ w ts, k ≠ .work w ts) →
        ∀ id, Says (·.tokenHash) (k.step svc x s).2.fleet id (lastToken (before id) t id)) →
      (k.step svc x s).1.Hands good (fun id => lastToken (before id) t id) t (k.step svc x s).2) :
    Handing good before t (k.step svc x s).2 (k.step svc x s).1 := by
  have hext : s.Extends (k.step svc x s).2 := (Call.step_spec k).extends
  -- A call that is at work goes on with the same state of the agent.
  have hwork {w : Work} {ts : List Task} (hw : k = .work w ts) : ∃ w' ts', (k.step svc x s).1 = .work w' ts' ∧ w'.st = w.st := by
    subst hw
    cases ts
    case nil => exact absurd rfl (hk w)
    case cons => exact ⟨_, _, rfl, rfl⟩
  have hrow (id : UUID) (hid : ∀ w ts, k = .work w ts → (w.agent s).agentID ≠ id) :
      Says (·.tokenHash) (k.step svc x s).2.fleet id (lastToken (before id) t id) :=
    says_tokenHash (h.row id hid) (fun w t ts hw hid' => absurd hid' (hid w _ hw)) (h.absent id)
  constructor
  case sent => exact fun a ha => (Call.step_spec k).sent_subset (h.sent a ha)
  case rows => exact fun a ha => hext.row (h.rows a ha)
  case registered =>
    intro uid ref href
    have hold : (s.registry.ref? uid = some ref ∧ Answered t (s.registry.heap ref).conn uid) ∨ ∃ w ts, k = .work w ts ∧ w.st = ref := by
      obtain href | hw := (Call.step_registers k).ref? href
      · exact (h.registered uid ref href).imp_left fun hanswered => ⟨href, hanswered⟩
      · exact .inr hw
    obtain ⟨href, hanswered⟩ | ⟨w, ts, hw, rfl⟩ := hold
    · left
      rwa [(hext.heap ref (hG.indexed _ (Registry.mem_of_ref? href)).left).conn]
    · obtain ⟨w', ts', hw', hst⟩ := hwork hw
      exact .inr ⟨w', ts', hw', hst⟩
  case call => exact hcall fun hno id => hrow id fun w ts hw => absurd hw (hno w ts)
  case row =>
    refine fun id hid => hrow id fun w ts hw => ?_
    obtain ⟨w', ts', hw', hst⟩ := hwork hw
    have hne := hid w' ts' hw'
    subst hw
    rwa [Work.agent, hst, (hext.heap w.st hknows).agentID] at hne
  case absent => exact fun id habsent => h.absent id (hext.absent habsent)
  case agentTokens => exact h.agentTokens
  case once => exact h.once

theorem Handing.clean (h : Handing good before t s k) (hno : s.NoOffer conn uid) : Clean t conn uid :=
  fun a ha hconn huid => hno _ (h.sent a ha) hconn huid

structure Found (good : Prop) (t : List Answer) (conn : ConnID) (auth : ConnAuth) (msg : AgentToServer) (newConn : Bool)
    (st : AgentConn) : Prop where
  uid : st.instanceUID = msg.instanceUID
  old : ¬newConn → Answered t conn msg.instanceUID
  clean : good → newConn → ¬auth.viaAgentToken → Clean t conn msg.instanceUID
  offered : good → newConn → ¬auth.viaAgentToken → ¬st.tokenOffered

theorem Handing.found (h : Handing good before t s k) (hG : s.Grounded) (hok : good → Untaken s k)
    (hfinds : Call.Finds x s k conn auth msg now known newConn st s') : Found good t conn auth msg newConn st := by
  cases hfinds
  case known hauth hcustomer hlive =>
    obtain ⟨ref, href, rfl⟩ := Option.map_eq_some_iff.mp hlive
    refine ⟨(hG.indexed _ (Registry.mem_of_ref? href)).right, fun hold => ?_, fun hgood hnew hvia => ?_, fun hgood hnew hvia => ?_⟩
    · have hconn : (s.registry.heap ref).conn = conn := by simpa using hold
      obtain hanswered | ⟨w, ts, hw, -⟩ := h.registered _ _ href
      · exact hconn ▸ hanswered
      · cases hw
    · exact h.clean ((hok hgood _ hauth hvia).right fun prev hprev => by simpa [← Option.some.inj (hlive.symm.trans hprev)] using hnew)
    · exact (hok hgood _ hauth hvia).left _ hlive (by simpa using hnew)
  case found => exact ⟨rfl, by simp, fun hgood _ hvia => h.call hgood hvia, by simp [ofAgent]⟩
  case enrolled => exact ⟨rfl, by simp, fun hgood _ hvia => h.call hgood hvia, by simp [ofNewAgent]⟩

theorem Found.working (h : Found good t conn auth msg newConn st) {s₁ : Server}
    (hw : w = newWork conn auth msg now known newConn s₁.registry.next) (hrow : ∀ id, Says (·.tokenHash) s₁.fleet id (last id)) :
    Working good last t { s₁ with registry := (s₁.registry.new (st.attach conn msg now)).2 } w w.tasks := by
  have hagent : w.agent { s₁ with registry := (s₁.registry.new (st.attach conn msg now)).2 } = st.attach conn msg now := by
    rw [hw]
    exact Registry.heap_new_self _
  have hoffer : w.mayOffer ↔ newConn ∧ ¬auth.viaAgentToken := by
    rw [hw]
    exact decide_eq_true_iff
  have hsettings : w.resp.connectionSettings = none := by rw [hw]; rfl
  obtain ⟨pre, htasks, hpre⟩ := w.tasks_eq
  constructor
  case uid => rw [hagent, hw]; exact h.uid
  case conn => rw [hagent, hw]; rfl
  case resp => rw [hw]; rfl
  case old => rw [hw]; exact h.old
  case clean =>
    intro hgood hmay
    rw [hw]
    exact h.clean hgood (hoffer.mp hmay).left (hoffer.mp hmay).right
  case phase =>
    refine ⟨_, pre, htasks, hpre, ?_, ?_⟩
    · split_ifs with hmay
      · refine ⟨hmay, hsettings, fun hgood _ => ?_⟩
        rw [hagent]
        exact h.offered hgood (hoffer.mp hmay).left (hoffer.mp hmay).right
      · exact ⟨by simp [hsettings], fun _ h => absurd h hmay⟩
    · have hhash (p : TokenPhase) (hp : p = .due ∨ p = .done) (hash : Hash) : p.hash w hash = hash := by
        obtain rfl | rfl := hp
        · rfl
        · simp [TokenPhase.hash, ServerToAgent.token?, hsettings]
      rw [hhash _ (by split_ifs <;> simp)]
      exact hrow _

theorem Handing.hands (h : Handing good before t s k) (hk : ∀ w ts, k ≠ .work w ts) (hG : s.Grounded) (hok : good → Untaken s k)
    (hs : Call.Step svc x s k k' s') (hfresh : k'.Fresh s')
    (hrow : ∀ id, Says (·.tokenHash) s'.fleet id (lastToken (before id) t id)) :
    k'.Hands good (fun id => lastToken (before id) t id) t s' := by
  cases hs
  case look hauth =>
    intro hgood hvia
    have hlive : s.registry.live? _ = none := Option.map_eq_none_iff.mpr hfresh
    exact h.clean ((hok hgood _ hauth hvia).right (by simp [hlive]))
  case start hm hw hfinds => exact (h.found hG hok hfinds).working hw hrow
  case notFound | conflict => exact h.call
  case task => exact absurd rfl (hk _ _)
  case drain hk' =>
    obtain rfl | ⟨seen, rfl⟩ := hk'
    all_goals trivial
  all_goals trivial

def Draw.Mints (x : Draw) : Prop :=
  x.fail = false ∧ ∃ digits random, x.token = some (Tenants.generateAgentToken digits random)

theorem TokenPhase.Holds.step {hash : Hash} (h : p.Holds good s w) (hx : x.Mints) (hp : p.tasks = tk :: ts)
    (hsame : (w.agent s).Same (w.agent (tk.run svc x s w).2.2)) (hw' : w' = { w with resp := (tk.run svc x s w).2.1 })
    (hsaid : Says (·.tokenHash) s.fleet (w.agent s).agentID (p.hash w hash)) :
    ∃ p' : TokenPhase, (tk.run svc x s w).1 ++ ts = p'.tasks ∧ p'.Holds good (tk.run svc x s w).2.2 w' ∧
      Says (·.tokenHash) (tk.run svc x s w).2.2.fleet (w.agent s).agentID (p'.hash w' hash) := by
  cases p
  case due =>
    cases hp
    obtain ⟨hmay, hnone, hoffered⟩ := h
    by_cases hstop : (w.agent s).tokenOffered ∨ ¬w.accepts s
    case pos =>
      have hrun : Task.checkToken.run svc x s w = ([], w.resp, s) := if_pos hstop
      rw [hrun] at hw' ⊢
      subst hw'
      refine ⟨.done, rfl, ⟨by simp [hnone], fun hgood _ haccepts => ?_⟩, ?_⟩
      · exact absurd (hstop.resolve_right (not_not.mpr haccepts)) (hoffered hgood haccepts)
      · simpa [TokenPhase.hash, ServerToAgent.token?, hnone] using hsaid
    case neg =>
      have hrun : Task.checkToken.run svc x s w = ([.setAgentToken], w.resp, s) := if_neg hstop
      rw [hrun] at hw' ⊢
      subst hw'
      exact ⟨.minting, rfl, ⟨hmay, hnone, not_not.mp (not_or.mp hstop).right⟩, hsaid⟩
  case minting =>
    cases hp
    obtain ⟨hmay, hnone, haccepts⟩ := h
    obtain ⟨hfail, digits, random, hgen⟩ := hx
    subst hw'
    simp only [Task.run, hgen, hfail, Bool.false_eq_true, if_false]
    exact ⟨.offering _, rfl, ⟨hmay, hnone, haccepts, digits, random, rfl⟩, says_setAgentToken⟩
  case offering gen =>
    cases hp
    obtain ⟨hmay, hnone, haccepts, digits, random, rfl⟩ := h
    subst hw'
    refine ⟨.done, rfl, ⟨fun _ => ⟨hmay, (hsame.accepts _).trans haccepts⟩, fun _ _ _ => rfl⟩, ?_⟩
    have htoken : ServerToAgent.token? (Task.run svc x s w (.offerToken (Tenants.generateAgentToken digits random))).2.1 =
        some (Tenants.generateAgentToken digits random).secret := cutBearer_append _
    simp only [TokenPhase.hash, htoken]
    exact hsaid
  case done => cases hp

theorem Working.task (h : Working good last t s w (tk :: ts)) (hG : s.Grounded) (hw : w.st < s.registry.next) (hx : x.Mints) :
    Working good last t (tk.run svc x s w).2.2 { w with resp := (tk.run svc x s w).2.1 } ((tk.run svc x s w).1 ++ ts) := by
  have hs : Call.Step svc x s (.work w (tk :: ts)) _ (tk.run svc x s w).2.2 := Call.step_spec _
  have hsame : (w.agent s).Same (w.agent (tk.run svc x s w).2.2) := hs.extends.heap w.st hw
  refine ⟨hsame.instanceUID.trans h.uid, hsame.conn.trans h.conn, Task.instanceUID_run.trans h.resp, h.old, h.clean, ?_⟩
  obtain ⟨p, pre, hts, hpre, hholds, hsaid⟩ := h.phase
  have hagent : (w.agent (tk.run svc x s w).2.2).agentID = (w.agent s).agentID := hsame.agentID
  cases pre
  case nil =>
    obtain ⟨p', hts', hholds', hsaid'⟩ := hholds.step hx hts.symm hsame rfl hsaid
    refine ⟨p', [], hts', by simp, hholds', ?_⟩
    exact hagent ▸ hsaid'
  case cons tk' pre =>
    obtain ⟨rfl, rfl⟩ := List.cons.inj hts
    have htoken : tk.isToken = false := hpre tk List.mem_cons_self
    have htask {w' : Work} {tk' : Task} {ts' : List Task} (hk : Call.work w (tk :: (pre ++ p.tasks)) = .work w' (tk' :: ts')) :
        tk'.isToken = false := by
      cases hk
      exact htoken
    have hoffered : (w.agent (tk.run svc x s w).2.2).tokenOffered = (w.agent s).tokenOffered :=
      (Call.step_registers (.work w (tk :: (pre ++ p.tasks)))).heap hG hw hw (fun _ => rfl) fun w' tk' ts' f hk hf _ =>
        Task.tokenOffered_note? (htask hk) hf
    refine ⟨p, (tk.run svc x s w).1 ++ pre, (List.append_assoc ..).symm, fun t' ht' => ?_,
      hholds.congr rfl (Task.connectionSettings_run htoken) (hsame.accepts _) hoffered, ?_⟩
    · obtain ht' | ht' := List.mem_append.mp ht'
      · exact (Task.leads_of_mem_run ht').isToken htoken
      · exact hpre t' (List.mem_cons_of_mem _ ht')
    · have hsaid' : Says (·.tokenHash) (tk.run svc x s w).2.2.fleet (w.agent s).agentID (p.hash w (last (w.agent s).agentID)) := by
        refine says_tokenHash (k := .work w (tk :: (pre ++ p.tasks))) hsaid (fun w' tk' ts' hk _ => htask hk) fun habsent => ?_
        obtain ⟨a, ha, hid⟩ := (hG.states w.st hw).row
        exact absurd hid (habsent a ha)
      have hhash : p.hash { w with resp := (tk.run svc x s w).2.1 } (last (w.agent s).agentID) = p.hash w _ :=
        TokenPhase.hash_congr (Task.connectionSettings_run htoken) _
      rw [← hhash] at hsaid'
      exact hagent ▸ hsaid'

theorem Working.done (h : Working good last t s w []) : TokenPhase.done.Holds good s w ∧
    Says (·.tokenHash) s.fleet (w.agent s).agentID (TokenPhase.done.hash w (last (w.agent s).agentID)) := by
  obtain ⟨p, pre, hts, -, hholds, hsaid⟩ := h.phase
  cases p
  case done => exact ⟨hholds, hsaid⟩
  all_goals exact absurd hts.symm (by simp [TokenPhase.tasks])

theorem Working.once {conn : ConnID} {uid : InstanceUID} (h : Working good last t s w [])
    (ha : answers x s (.work w []) = [a]) (hconn : a.conn = conn) (huid : a.resp.instanceUID = uid)
    (honce : ∀ b, (answersOn t conn uid).head? = some b → ¬b.viaAgentToken → b.accepts →
      ((answersOn t conn uid).filter (·.offers)).length = 1) (hgood : good)
    (hb : (answersOn t conn uid ++ [a]).head? = some b) (hvia : ¬b.viaAgentToken) (haccepts : b.accepts) :
    ((answersOn t conn uid ++ [a]).filter (·.offers)).length = 1 := by
  obtain ⟨⟨hoffer, hoffers⟩, -⟩ := h.done
  obtain rfl := List.singleton_inj.mp ha
  have huid' : w.msg.instanceUID = uid := h.resp.symm.trans huid
  by_cases hfirst : answersOn t conn uid = []
  case pos =>
    rw [hfirst] at hb ⊢
    obtain rfl := Option.some.inj hb
    have hnew : w.newConn := by
      by_contra hold
      obtain ⟨a', ha', hconn', huid''⟩ := h.old hold
      have hmem : a' ∈ answersOn t conn uid := mem_answersOn.mpr ⟨ha', hconn'.trans hconn, huid''.trans huid'⟩
      simp [hfirst] at hmem
    have hmay : w.mayOffer := decide_eq_true ⟨hnew, hvia⟩
    rw [List.nil_append, List.filter_cons_of_pos]
    · rfl
    · exact hoffers hgood hmay haccepts
  case neg =>
    rw [List.head?_append_of_ne_nil _ hfirst] at hb
    have hlength := honce b hb hvia haccepts
    rw [List.filter_append, List.length_append, hlength, List.filter_cons_of_neg]
    · rfl
    · -- An offer on this connection would have been made before.
      intro hoffered
      obtain ⟨a', ha'⟩ := List.exists_mem_of_length_pos (hlength ▸ Nat.one_pos)
      obtain ⟨hmem, hoffered'⟩ := List.mem_filter.mp ha'
      obtain ⟨hmem, hconn', huid''⟩ := mem_answersOn.mp hmem
      have hclean := h.clean hgood (hoffer hoffered).left a' hmem (hconn'.trans hconn.symm) (huid''.trans huid'.symm)
      simp [Answer.offers, hclean] at hoffered'

theorem Handing.respond (h : Handing good before t s (.work w [])) (hG : s.Grounded) (hw : w.st < s.registry.next) :
    Handing good before (t ++ answers x s (.work w [])) ((Call.work w []).step svc x s).2 ((Call.work w []).step svc x s).1 := by
  have hs : Call.Step svc x s (.work w []) .idle (s.deliver w.conn (w.agent s).agentID w.resp) := Call.step_spec _
  have hfleet := s.fleet_deliver w.conn (w.agent s).agentID w.resp
  have hregistry := s.registry_deliver w.conn (w.agent s).agentID w.resp
  have hcall : Working good (fun id => lastToken (before id) t id) t s w [] := h.call
  obtain ⟨⟨hoffer, -⟩, hsaid⟩ := hcall.done
  have hrow := (hG.states w.st hw).row
  obtain ⟨a, ha⟩ : ∃ a, answers x s (.work w []) = [a] := ⟨_, rfl⟩
  have haeq := (List.singleton_inj.mp ha).symm
  have hid : a.agentID = (w.agent s).agentID := by rw [haeq]
  have hresp : a.resp = w.resp := by rw [haeq]
  have hconn : a.conn = w.conn := by rw [haeq]
  rw [ha]
  change Handing good before (t ++ [a]) (s.deliver w.conn (w.agent s).agentID w.resp) .idle
  constructor
  case sent =>
    intro b hb
    obtain hb | hb := List.mem_append.mp hb
    · exact hs.sent_subset (h.sent b hb)
    · obtain rfl := List.mem_singleton.mp hb
      obtain ⟨effects, he⟩ := s.deliver_eq w.conn (w.agent s).agentID w.resp
      rw [he, hconn, hresp]
      exact List.mem_append_right _ List.mem_cons_self
  case rows =>
    rw [hfleet]
    intro b hb
    obtain hb | hb := List.mem_append.mp hb
    · exact h.rows b hb
    · obtain rfl := List.mem_singleton.mp hb
      exact hid ▸ hrow
  case registered =>
    rw [hregistry]
    intro uid ref href
    left
    obtain ⟨b, hb, hanswer⟩ | ⟨w', ts, hw', rfl⟩ := h.registered uid ref href
    · exact ⟨b, List.mem_append_left _ hb, hanswer⟩
    · cases hw'
      have huid := (hG.indexed _ (Registry.mem_of_ref? href)).right
      refine ⟨a, List.mem_append_right _ List.mem_cons_self, hconn.trans hcall.conn.symm, ?_⟩
      rw [hresp, hcall.resp, ← hcall.uid]
      exact huid
  case call => trivial
  case row =>
    intro id _
    rw [hfleet, lastToken_concat, hid, hresp]
    split_ifs with hagent
    · subst hagent
      exact hsaid
    · refine h.row id ?_
      rintro w' ts hw'
      cases hw'
      exact hagent
  case absent =>
    rw [hfleet]
    intro id habsent
    rw [lastToken_concat, if_neg, h.absent id habsent]
    rintro rfl
    obtain ⟨row, hmem, hrow⟩ := hrow
    exact habsent row hmem (hrow.trans hid.symm)
  case agentTokens =>
    intro b hb hvia hoffers
    obtain hb | hb := List.mem_append.mp hb
    · exact h.agentTokens b hb hvia hoffers
    · obtain rfl := List.mem_singleton.mp hb
      rw [haeq] at hvia hoffers
      exact absurd hvia (of_decide_eq_true (hoffer hoffers).left).right
  case once =>
    intro hgood conn uid b
    rw [answersOn_concat]
    split_ifs with hagent
    · exact hcall.once ha hagent.left hagent.right (h.once hgood conn uid) hgood
    · rw [List.append_nil]
      exact h.once hgood conn uid b

theorem Handing.step (h : Handing good before t s k) (hG : s.Grounded) (hplaced : k.Placed b s 0) (hx : x.Mints)
    (hok : good → Untaken s k) : Handing good before (t ++ answers x s k) (k.step svc x s).2 (k.step svc x s).1 := by
  have hs : Call.Step svc x s k (k.step svc x s).1 (k.step svc x s).2 := Call.step_spec k
  by_cases hwork : ∃ w ts, k = .work w ts
  case pos =>
    obtain ⟨w, ts, rfl⟩ := hwork
    cases ts
    case nil => exact h.respond hG hplaced.knows
    case cons tk ts =>
      have hcall : Working good _ t s w (tk :: ts) := h.call
      rw [answers, List.append_nil]
      · exact h.step_of_no_answer (by simp) hG hplaced.knows fun _ => hcall.task hG hplaced.knows hx
      · simp
  case neg =>
    have hno : ∀ w ts, k ≠ .work w ts := fun w ts hw => hwork ⟨w, ts, hw⟩
    rw [answers, List.append_nil]
    · exact h.step_of_no_answer (fun w => hno w []) hG hplaced.knows fun hrow => h.hands hno hG hok hs hplaced.fresh.step (hrow hno)
    · exact fun w => hno w []

end Handing

section Run

variable [Runtime] {svc : Pipelines.Service} {good : Prop} {t : List Answer} {publicEndpoint : String} {fleet : Fleet}
  {pipelines : UUID → List Store.ActivePipeline}

theorem Handing.begin (r : Request) (h : Handing good before t s .idle) : Handing good before t s r.begin where
  sent := h.sent
  rows := h.rows
  registered uid ref href := by
    obtain hanswered | ⟨w, ts, hw, -⟩ := h.registered uid ref href
    · exact .inl hanswered
    · cases hw
  call := by cases r <;> trivial
  row id _ := h.row id (by simp)
  absent := h.absent
  agentTokens := h.agentTokens
  once := h.once

def tokenHashOf (f : Fleet) (id : UUID) : Hash :=
  match f.agents.find? (·.id = id) with
  | some a => a.tokenHash
  | none => []

theorem Handing.init (hG : (newServer publicEndpoint fleet pipelines).Grounded) :
    Handing good (tokenHashOf fleet) [] (newServer publicEndpoint fleet pipelines) .idle where
  sent := by simp
  rows := by simp
  registered uid ref href := by simp [newServer, newRegistry, Registry.ref?] at href
  call := trivial
  row id _ := by
    rintro a ha rfl
    have hfind : fleet.agents.find? (·.id = a.id) = some a := hG.find?_row ha
    simp [lastToken, tokenHashOf, hfind]
  absent id habsent := by
    have hfind : fleet.agents.find? (·.id = id) = none := by
      rw [List.find?_eq_none]
      exact fun a ha => by simpa using habsent a ha
    simp [lastToken, tokenHashOf, hfind]
  agentTokens := by simp
  once := by simp [answersOn]

theorem handing_run (svc : Pipelines.Service) (hc : Arranged true c)
    (hI : Handing good before [] c.shared (c.calls 0)) (hok : ∀ s k, ok s k → good → Untaken s k)
    (hevents : ∀ e ∈ events, Orderly true Draw.Mints e) (hmeets : (handler svc).Meets ok c events) :
    Handing good before ((handler svc).trace answers c events) ((handler svc).run c events).shared
      (((handler svc).run c events).calls 0) := by
  have hfold (t shows : List Answer) : shows.foldl (fun t a => t ++ [a]) t = t ++ shows := by
    rw [List.foldl_append_eq_append, ← List.flatMap_def, List.flatMap_singleton']
  have hrun := (hc.run (f := answers) (g := fun t a => t ++ [a]) (I := Handing good before) ?_ ?_ ?_ ?_ hI hevents hmeets).right
  · rwa [hfold, List.nil_append] at hrun
  · exact fun t s r h => h.begin r
  · intro t x s k h hG hk hx hu
    rw [hfold]
    exact h.step hG hk hx (hok s k hu)
  · exact fun t x s k k' h hG hk i hi hk' => h.aside hG hk.knows hk'.knows (hk'.aside hi)
  · intro x s k hk
    unfold answers
    split
    case h_1 => exact absurd rfl hk
    case h_2 => rfl

-- The tokens of agents are handed over, where messages are handled one after another and nothing fails. On each
-- connection without a token of an agent, an agent that accepts one is offered one, and only one, if its messages find no
-- state of the agent that tells of an offer on another connection, and no earlier offer on their own. With a token of an
-- agent there is no offer, and the token that is stored is always the last one that was offered.
theorem agent_token_handed_over (hids : (fleet.agents.map (·.id)).Nodup) (huids : (fleet.agents.map (·.instanceUID)).Nodup)
    (hnil : ∀ a ∈ fleet.agents, a.id ≠ Store.nilUUID) {c : Config Call Server}
    (hc : c = (handler svc).init (newServer publicEndpoint fleet pipelines)) {events : List (Event Request Draw)}
    (hevents : ∀ e ∈ events, Orderly true Draw.Mints e) {t : List Answer} (ht : t = (handler svc).trace answers c events) :
    ((handler svc).Meets Untaken c events → ∀ conn uid a, (answersOn t conn uid).head? = some a → ¬a.viaAgentToken →
        a.accepts → ((answersOn t conn uid).filter (·.offers)).length = 1) ∧
      (∀ a ∈ t, a.viaAgentToken → ¬a.offers) ∧
      ((((handler svc).run c events).calls 0).isIdle → ∀ id,
        Says (·.tokenHash) ((handler svc).run c events).shared.fleet id (lastToken (tokenHashOf fleet id) t id)) := by
  have hG : (newServer publicEndpoint fleet pipelines).Grounded := .init hids huids hnil
  have harranged : Arranged true c := hc ▸ .init hids huids hnil
  have hI {good : Prop} : Handing good (tokenHashOf fleet) [] c.shared (c.calls 0) := hc ▸ .init hG
  subst ht
  refine ⟨fun hmeets => ?_, ?_⟩
  · exact (handing_run svc harranged hI (fun _ _ h _ => h) hevents hmeets).once trivial
  · have hrun := handing_run svc harranged hI (fun _ _ _ h => False.elim h) hevents
      (System.meets_true c events)
    refine ⟨hrun.agentTokens, fun hidle id => hrun.row id ?_⟩
    intro w ts hw
    rw [hw] at hidle
    cases hidle

end Run

section Sample

instance (s : Server) (conn : ConnID) (uid : InstanceUID) : Decidable (s.NoOffer conn uid) :=
  inferInstanceAs <| Decidable <| ∀ r ∈ s.sent, r.1 = conn → r.2.instanceUID = uid → r.2.connectionSettings = none

instance (s : Server) : (k : Call) → Decidable (Untaken s k)
  | .receive conn _ => inferInstanceAs <| Decidable <| ∀ auth ∈ s.accepted conn, ¬auth.viaAgentToken → _
  | .idle | .connect .. | .lookup .. | .enroll .. | .work .. | .close _ | .setDisconnected _ | .commit .. | .notify _
  | .listen | .render _ | .snapshot .. | .push .. | .send .. | .drain | .touch _ => isTrue trivial

variable [Runtime]

def tokenCall (r : Request) (steps : Nat) (random : String) : List (Event Request Draw) :=
  .start 0 r :: List.replicate steps (.run 0 { sampleDraw 20 with token := some (Tenants.generateAgentToken "0123abcd" random) })

theorem orderly_tokenCall : ∀ e ∈ tokenCall r steps random, Orderly true Draw.Mints e := by
  intro e he
  obtain rfl | he := List.mem_cons.mp he
  · exact ⟨fun _ => rfl, by simp⟩
  · obtain rfl := List.eq_of_mem_replicate he
    exact fun _ => ⟨rfl, _, _, rfl⟩

def tokenConnect (conn : ConnID) : List (Event Request Draw) :=
  tokenCall (.connect conn "Bearer otm_bt_0123abcd_s") 1 ""

def tokenMessage (conn : ConnID) (random : String) : List (Event Request Draw) :=
  tokenCall (.message conn (sampleMessage [1] acceptsOpAMPConnectionSettings)) 12 random

def reconnectRun : List (Event Request Draw) :=
  tokenConnect 1 ++ tokenConnect 2 ++ tokenMessage 1 "a" ++ tokenCall (.close 1) 2 "" ++ tokenMessage 2 "b" ++
    tokenCall (.connect 3 "Bearer otm_at_0123abcd_b") 1 "" ++ tokenMessage 3 "c"

def takeoverRun : List (Event Request Draw) :=
  tokenConnect 1 ++ tokenConnect 2 ++ tokenMessage 1 "a" ++ tokenMessage 2 "b" ++ tokenCall (.close 1) 2 ""

theorem orderly_reconnectRun : ∀ e ∈ reconnectRun, Orderly true Draw.Mints e := by
  unfold reconnectRun tokenConnect tokenMessage
  simp only [List.forall_mem_append]
  exact ⟨⟨⟨⟨⟨⟨orderly_tokenCall, orderly_tokenCall⟩, orderly_tokenCall⟩, orderly_tokenCall⟩, orderly_tokenCall⟩,
    orderly_tokenCall⟩, orderly_tokenCall⟩

theorem orderly_takeoverRun : ∀ e ∈ takeoverRun, Orderly true Draw.Mints e := by
  unfold takeoverRun tokenConnect tokenMessage
  simp only [List.forall_mem_append]
  exact ⟨⟨⟨⟨orderly_tokenCall, orderly_tokenCall⟩, orderly_tokenCall⟩, orderly_tokenCall⟩, orderly_tokenCall⟩

end Sample

section Reconnects

theorem reconnectRun_handed_over :
    letI := sampleRuntime
    let c := (handler sampleService).init (newServer "" sampleFleet fun _ => [])
    let t := (handler sampleService).trace answers c reconnectRun
    ((answersOn t 1 [1]).filter (·.offers)).length = 1 ∧ ((answersOn t 2 [1]).filter (·.offers)).length = 1 ∧
      ((∃ a ∈ t, a.viaAgentToken) ∧ ∀ a ∈ t, a.viaAgentToken → ¬a.offers) ∧
      lastToken (tokenHashOf sampleFleet 21) t 21 = sampleRuntime.sha256 "otm_at_0123abcd_b" ∧
      Says (·.tokenHash) ((handler sampleService).run c reconnectRun).shared.fleet 21 (lastToken (tokenHashOf sampleFleet 21) t 21) := by
  intro c t
  have h := @agent_token_handed_over sampleRuntime sampleService "" sampleFleet (fun _ => []) (by decide) (by decide)
    (by decide) c rfl (@reconnectRun sampleRuntime) (@orderly_reconnectRun sampleRuntime) t rfl
  obtain ⟨a, ha, hvia, haccepts⟩ : ∃ a ∈ (answersOn t 1 [1]).head?, ¬a.viaAgentToken ∧ a.accepts := by decide +kernel
  obtain ⟨b, hb, hvia', haccepts'⟩ : ∃ b ∈ (answersOn t 2 [1]).head?, ¬b.viaAgentToken ∧ b.accepts := by decide +kernel
  refine ⟨h.left (by decide +kernel) _ _ a ha hvia haccepts, h.left (by decide +kernel) _ _ b hb hvia' haccepts',
    ⟨by decide +kernel, h.right.left⟩, by decide +kernel, h.right.right (by decide +kernel) 21⟩

-- A state that tells of the offer on the first connection is kept when the agent turns to the second one, on which it is
-- offered nothing.
theorem takeoverRun_not_handed_over :
    letI := sampleRuntime
    let c := (handler sampleService).init (newServer "" sampleFleet fun _ => [])
    let t := (handler sampleService).trace answers c takeoverRun
    (∀ e ∈ takeoverRun, Orderly true Draw.Mints e) ∧ (((handler sampleService).run c takeoverRun).calls 0).isIdle ∧
      (∃ a ∈ (answersOn t 2 [1]).head?, ¬a.viaAgentToken ∧ a.accepts) ∧
      ¬((answersOn t 2 [1]).filter (·.offers)).length = 1 := by
  exact ⟨@orderly_takeoverRun sampleRuntime, by decide +kernel, by decide +kernel, by decide +kernel⟩

end Reconnects
end Opamp
