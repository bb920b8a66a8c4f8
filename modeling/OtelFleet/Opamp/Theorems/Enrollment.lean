import OtelFleet.Opamp.Theorems.Steps

-- How often bootstrap tokens are used to enroll agents.
namespace Opamp

open Store (UUID Fleet BootstrapToken)
open Interleave (System Event Config)

def Server.enrollments (s : Server) (tokenID : UUID) : Nat :=
  s.effects.countP (·.act = .enroll tokenID)

@[simp]
theorem Server.enrollments_effect (s : Server) (conn : ConnID) (agentID : UUID) (act : Act) (tokenID : UUID) :
    (s.effect conn agentID act).enrollments tokenID =
      s.enrollments tokenID + if act = .enroll tokenID then 1 else 0 := by
  simp [enrollments, effect, List.countP_cons]

@[simp]
theorem Server.enrollments_deliver (s : Server) (conn : ConnID) (agentID : UUID) (resp : ServerToAgent)
    (tokenID : UUID) : (s.deliver conn agentID resp).enrollments tokenID = s.enrollments tokenID := by
  unfold deliver
  split
  · exact s.enrollments_effect conn agentID _ tokenID
  · rfl

-- The tokens are the ones of the fleet at first, and the uses of each count its enrollments.
def CountsUses (fleet : Fleet) (s : Server) : Prop :=
  s.fleet.tokens = fleet.tokens.map fun t => { t with usedCount := t.usedCount + s.enrollments t.id }

structure SameUses (s s' : Server) : Prop where
  tokens : s'.fleet.tokens = s.fleet.tokens
  enrollments : ∀ tokenID, s'.enrollments tokenID = s.enrollments tokenID

theorem SameUses.effect {s s' : Server}
    (ht : s'.fleet.tokens = s.fleet.tokens) (he : s'.effects = s.effects) (hact : ∀ tokenID, act ≠ .enroll tokenID) :
    SameUses s (s'.effect conn agentID act) where
  tokens := ht
  enrollments tokenID := by
    rw [Server.enrollments_effect, if_neg (hact tokenID)]
    simp only [Server.enrollments, he, Nat.add_zero]

structure Uses (s s' : Server) (tokenID : UUID) : Prop where
  tokens : s'.fleet.tokens =
    s.fleet.tokens.map fun t => if t.id = tokenID then { t with usedCount := t.usedCount + 1 } else t
  enrollments : ∀ tokenID', s'.enrollments tokenID' = s.enrollments tokenID' + if tokenID = tokenID' then 1 else 0

section Steps

theorem CountsUses.same (h : CountsUses fleet s) (hs : SameUses s s') : CountsUses fleet s' := by
  unfold CountsUses
  simp only [hs.tokens, hs.enrollments]
  exact h

theorem CountsUses.uses (h : CountsUses fleet s) (hs : Uses s s' tokenID) : CountsUses fleet s' := by
  unfold CountsUses at h ⊢
  rw [hs.tokens, h, List.map_map]
  refine List.map_congr_left fun t _ => ?_
  simp only [Function.comp, hs.enrollments, eq_comm (a := tokenID)]
  split_ifs
  · simp [Nat.add_assoc]
  · rfl

theorem Call.Finds.uses {known newConn : Bool} (h : Call.Finds x s k conn auth msg now known newConn st s') :
    SameUses s s' ∨ (∃ d, k = .enroll conn auth msg now d) ∧ Uses s s' auth.tokenID := by
  cases h
  case known | found => exact .inl ⟨rfl, fun _ => rfl⟩
  case enrolled d agent f hf =>
    refine .inr ⟨⟨d, rfl⟩, hf.tokens, fun tokenID => ?_⟩
    simp only [Server.enrollments_effect, Act.enroll.injEq]
    rfl

variable [Runtime]

theorem Task.Step.sameUses {t : Task} (h : Task.Step svc x s w t new resp s') : SameUses s s' := by
  cases h
  case skip | note | offerToken | put | noConfig | render | notAssigned | offer => exact ⟨rfl, fun _ => rfl⟩
  case write hf _ _ _ | mint hf _ | assign hf => exact .effect hf.tokens rfl (by simp)
  case upToDate => exact .effect rfl rfl (by simp)

theorem Call.Step.uses (h : Call.Step svc x s k k' s') :
    SameUses s s' ∨ ∃ conn auth msg now d, k = .enroll conn auth msg now d ∧ Uses s s' auth.tokenID := by
  cases h
  case stop | accept | look | notFound | conflict | close | remove | notDisconnected | commit | notify | listen |
      noRender | render | snapshot | pushed | pass | notAssigned | notSent | drain | touch | notTouched =>
    exact .inl ⟨rfl, fun _ => rfl⟩
  case mismatch hm hfinds | start hm hw hfinds =>
    obtain ⟨ht, he⟩ | ⟨⟨d, rfl⟩, ht, he⟩ := hfinds.uses
    · exact .inl ⟨ht, he⟩
    · exact .inr ⟨_, _, _, _, _, rfl, ht, he⟩
  case task ht => exact .inl ht.sameUses
  case respond | send => exact .inl ⟨by simp, by simp⟩
  case disconnect hf _ | assign hf => exact .inl (.effect hf.tokens rfl (by simp))

end Steps

section Authenticate

variable [Runtime]

theorem authenticate_eq_ok (h : authenticate f header now fail = .ok auth) :
    ∃ tokenPrefix token, authenticateAgentToken f tokenPrefix token = .ok auth ∨
      authenticateBootstrapToken f tokenPrefix token now = .ok auth := by
  unfold authenticate at h
  split at h
  case h_1 => cases h
  case h_2 token _ =>
    split at h
    case isTrue => cases h
    case isFalse =>
      split at h
      case h_1 tokenPrefix _ =>
        split at h
        case isTrue => cases h
        case isFalse => exact ⟨tokenPrefix, token, .inl h⟩
      case h_2 =>
        split at h
        case h_1 tokenPrefix _ =>
          split at h
          case isTrue => cases h
          case isFalse => exact ⟨tokenPrefix, token, .inr h⟩
        case h_2 => cases h

theorem authenticateAgentToken_eq_ok (h : authenticateAgentToken f tokenPrefix token = .ok auth) :
    auth.viaAgentToken ∧ auth.tokenID = Store.nilUUID ∧ auth.agentID.isSome := by
  unfold authenticateAgentToken at h
  split at h
  case h_1 => cases h
  case h_2 =>
    split_ifs at h
    cases h
    exact ⟨rfl, rfl, rfl⟩

-- The row of the token that a connection is made with has a use left.
theorem authenticateBootstrapToken_eq_ok (h : authenticateBootstrapToken f tokenPrefix token now = .ok auth) :
    ¬auth.viaAgentToken ∧ ∃ t ∈ f.tokens, t.id = auth.tokenID ∧ (0 < t.maxUses → t.usedCount < t.maxUses) := by
  unfold authenticateBootstrapToken at h
  split at h
  case h_1 => cases h
  case h_2 t hfind =>
    have hmem := List.mem_of_find?_eq_some hfind
    simp only [Fleet.activeBootstrapTokensByPrefix, List.mem_filterMap, List.mem_filter, Option.map_eq_some_iff] at hmem
    obtain ⟨row, ⟨hrow, -⟩, status, -, rfl⟩ := hmem
    simp only [Except.map] at h
    split at h
    case h_1 => cases h
    case h_2 hu =>
      cases h
      refine ⟨by simp, row, hrow, rfl, fun hmax => ?_⟩
      unfold tokenUsable at hu
      split_ifs at hu with _ hexhausted
      exact Nat.lt_of_not_le fun hle => hexhausted ⟨hmax, hle⟩

end Authenticate

section Limit

-- What a run does with bootstrap tokens: connections are made with them, and agents enrolled on connections.
inductive Mark where
  | authenticated (conn : ConnID) (tokenID : UUID)
  | enrolled (conn : ConnID) (tokenID : UUID)
deriving DecidableEq

def Mark.enrolls (tokenID : UUID) : Mark → Bool
  | enrolled _ tokenID' => tokenID' = tokenID
  | authenticated _ _ => false

-- The marks are given latest first. An enrollment with the token comes after its connection was made with it,
-- and no other enrollment with the token is in between.
def Alone (tokenID : UUID) : List Mark → Prop
  | [] => True
  | .enrolled conn tokenID' :: earlier =>
    (tokenID' = tokenID → .authenticated conn tokenID ∈ earlier.takeWhile (¬·.enrolls tokenID)) ∧ Alone tokenID earlier
  | .authenticated _ _ :: earlier => Alone tokenID earlier

instance decidableAlone (tokenID : UUID) : (marks : List Mark) → Decidable (Alone tokenID marks)
  | [] => isTrue trivial
  | .enrolled _ _ :: earlier =>
    have := decidableAlone tokenID earlier
    inferInstanceAs <| Decidable <| _ ∧ _
  | .authenticated _ _ :: earlier => decidableAlone tokenID earlier

-- When a connection was made with the token, a use was left.
def Checked (t : BootstrapToken) : List Mark → Prop
  | [] => True
  | .authenticated _ tokenID :: earlier =>
    (tokenID = t.id → t.usedCount + earlier.countP (·.enrolls t.id) < t.maxUses) ∧ Checked t earlier
  | .enrolled _ _ :: earlier => Checked t earlier

theorem Checked.lt {before after : List Mark} (h : Checked t (after ++ .authenticated conn t.id :: before)) :
    t.usedCount + before.countP (·.enrolls t.id) < t.maxUses := by
  induction after
  case nil => exact h.left rfl
  case cons m after hi =>
    cases m
    case authenticated => exact hi h.right
    case enrolled => exact hi h

theorem Alone.le_maxUses (h : Alone t.id marks) (hchecked : Checked t marks) (hused : t.usedCount ≤ t.maxUses) :
    t.usedCount + marks.countP (·.enrolls t.id) ≤ t.maxUses := by
  induction marks
  case nil => exact hused
  case cons m earlier hi =>
    cases m
    case authenticated conn tokenID => simpa [Mark.enrolls] using hi h hchecked.right
    case enrolled conn tokenID =>
      obtain ⟨hlast, hearlier⟩ := h
      by_cases hid : tokenID = t.id
      case neg => simpa [Mark.enrolls, hid] using hi hearlier hchecked
      case pos =>
        obtain ⟨after, before, hsplit⟩ := List.append_of_mem (hlast hid)
        have hnone : (earlier.takeWhile (¬·.enrolls t.id)).countP (·.enrolls t.id) = 0 := by
          rw [List.countP_eq_zero]
          intro m hm
          simpa using List.mem_takeWhile_imp hm
        have hcount : earlier.countP (·.enrolls t.id) =
            (before ++ earlier.dropWhile (¬·.enrolls t.id)).countP (·.enrolls t.id) := by
          conv_lhs => rw [← List.takeWhile_append_dropWhile (p := fun m => ¬m.enrolls t.id) (l := earlier)]
          rw [hsplit] at hnone
          rw [List.countP_append, List.countP_append, hsplit, hnone]
          simp only [List.countP_append, List.countP_cons] at hnone
          omega
        have hlt : t.usedCount + earlier.countP (·.enrolls t.id) < t.maxUses := by
          rw [hcount]
          refine @Checked.lt t conn _ after ?_
          rw [← List.cons_append, ← List.append_assoc, ← hsplit, List.takeWhile_append_dropWhile]
          exact hchecked
        rw [List.countP_cons_of_pos (by simp [Mark.enrolls, hid])]
        exact hlt

variable [Runtime] (svc : Pipelines.Service)

def marks (x : Draw) (s : Server) (k : Call) : List Mark :=
  let s' := (k.step svc x s).2
  match k with
  | .connect conn _ =>
    match s.accepted conn, s'.accepted conn with
    | none, some auth => if auth.viaAgentToken then [] else [.authenticated conn auth.tokenID]
    | _, _ => []
  | .enroll conn auth _ _ _ =>
    if s.enrollments auth.tokenID < s'.enrollments auth.tokenID then [.enrolled conn auth.tokenID] else []
  | _ => []

variable {svc} {x : Draw} {fleet : Fleet}

structure Noted (fleet : Fleet) (shows : List Mark) (s : Server) : Prop where
  counts : CountsUses fleet s
  enrollments : ∀ tokenID, s.enrollments tokenID = shows.countP (·.enrolls tokenID)
  checked : ∀ t ∈ fleet.tokens, 0 < t.maxUses → Checked t shows

theorem Noted.usable (h : Noted fleet shows s) (hids : (fleet.tokens.map (·.id)).Nodup)
    (hauth : authenticate s.fleet header now fail = .ok auth) (hvia : ¬auth.viaAgentToken)
    (ht : t ∈ fleet.tokens) (hmax : 0 < t.maxUses) (hid : auth.tokenID = t.id) :
    t.usedCount + shows.countP (·.enrolls t.id) < t.maxUses := by
  obtain ⟨tokenPrefix, token, hauth | hauth⟩ := authenticate_eq_ok hauth
  · exact absurd (authenticateAgentToken_eq_ok hauth).left hvia
  · obtain ⟨-, row, hrow, hrowID, huse⟩ := authenticateBootstrapToken_eq_ok hauth
    rw [h.counts] at hrow
    obtain ⟨t', ht', rfl⟩ := List.mem_map.mp hrow
    obtain rfl : t' = t := List.inj_on_of_nodup_map hids ht' ht (hrowID.trans hid)
    rw [← h.enrollments]
    exact huse hmax

theorem marks_eq_nil (hsame : SameUses s (k.step svc x s).2) (hconnect : ∀ conn header, k ≠ .connect conn header) :
    marks svc x s k = [] := by
  cases k
  case connect conn header => exact absurd rfl (hconnect conn header)
  case enroll conn auth msg now d => simp [marks, hsame.enrollments]
  all_goals rfl

theorem marks_connect (conn : ConnID) (header : String) :
    marks svc x s (.connect conn header) = [] ∨ ∃ auth, authenticate s.fleet header x.now x.fail = .ok auth ∧
      ¬auth.viaAgentToken ∧ marks svc x s (.connect conn header) = [.authenticated conn auth.tokenID] := by
  simp only [marks, Call.step]
  cases hconn : s.accepted conn
  case some auth => simp
  case none =>
    cases hauth : authenticate s.fleet header x.now x.fail
    case error e => simp [hconn]
    case ok auth =>
      by_cases hvia : auth.viaAgentToken
      · simp [hvia]
      · exact .inr ⟨auth, rfl, hvia, by simp [hvia]⟩

omit [Runtime] in
theorem Noted.same (h : Noted fleet shows s) (hs : SameUses s s') : Noted fleet shows s' :=
  ⟨h.counts.same hs, fun tokenID => (hs.enrollments tokenID).trans (h.enrollments tokenID), h.checked⟩

theorem Noted.step (h : Noted fleet shows s) (hids : (fleet.tokens.map (·.id)).Nodup) (x : Draw) (k : Call) :
    Noted fleet ((marks svc x s k).reverse ++ shows) (k.step svc x s).2 := by
  obtain hsame | ⟨conn, auth, msg, now, d, rfl, huses⟩ := (Call.step_spec k).uses
  case inl =>
    by_cases hconnect : ∃ conn header, k = .connect conn header
    case neg =>
      push Not at hconnect
      rw [marks_eq_nil hsame hconnect]
      exact h.same hsame
    case pos =>
      obtain ⟨conn, header, rfl⟩ := hconnect
      obtain hnil | ⟨auth, hauth, hvia, hmarks⟩ := @marks_connect _ svc x s conn header
      · rw [hnil]
        exact h.same hsame
      · rw [hmarks]
        have hrest := h.same hsame
        refine ⟨hrest.counts, fun tokenID => ?_, fun t ht hmax => ⟨h.usable hids hauth hvia ht hmax, h.checked t ht hmax⟩⟩
        simpa [Mark.enrolls] using hrest.enrollments tokenID
  case inr =>
    have hmarks : marks svc x s (.enroll conn auth msg now d) = [.enrolled conn auth.tokenID] := by
      simp [marks, huses.enrollments]
    rw [hmarks]
    refine ⟨h.counts.uses huses, fun tokenID => ?_, h.checked⟩
    simp [huses.enrollments, h.enrollments, Mark.enrolls, List.countP_cons]

variable (publicEndpoint : String) (fleet : Fleet) (pipelines : UUID → List Store.ActivePipeline)

-- If no agent is enrolled with a token between a connection being made with it and the enrollment on that
-- connection, the token is not used more often than it may be.
theorem enrollments_le_maxUses {events : List (Event Request Draw)} (hids : (fleet.tokens.map (·.id)).Nodup)
    {t : BootstrapToken} (ht : t ∈ fleet.tokens) (hmax : 0 < t.maxUses) (hused : t.usedCount ≤ t.maxUses)
    (halone : Alone t.id
      ((handler svc).trace (marks svc) ((handler svc).init (newServer publicEndpoint fleet pipelines)) events).reverse) :
    t.usedCount +
        ((handler svc).run ((handler svc).init (newServer publicEndpoint fleet pipelines)) events).shared.enrollments t.id ≤
      t.maxUses := by
  have hinit : Noted fleet (List.reverse []) (newServer publicEndpoint fleet pipelines) :=
    ⟨by simp [CountsUses, newServer, Server.enrollments], fun _ => rfl, fun _ _ _ => trivial⟩
  have hact (shows : List Mark) (c : Config Call Server) (e : Event Request Draw)
      (h : Noted fleet shows.reverse c.shared) :
      Noted fleet (shows ++ System.shown (marks svc) c e).reverse ((handler svc).act c e).shared := by
    cases e
    case start i r =>
      simp only [System.shown, List.append_nil, System.act]
      split_ifs <;> exact h
    case run i x =>
      rw [List.reverse_append]
      exact h.step hids x (c.calls i)
  have hrun := System.run_traced (S := handler svc) (c := (handler svc).init (newServer publicEndpoint fleet pipelines))
    (f := marks svc) (I := fun shows c => Noted fleet shows.reverse c.shared) (E := fun _ => True) hinit
    (fun shows c e h _ _ => hact shows c e h) (fun _ _ => trivial) (System.meets_true _ events)
  rw [List.nil_append] at hrun
  rw [hrun.enrollments]
  exact halone.le_maxUses (hrun.checked t ht hmax) hused

end Limit

section Sample

def sampleService : Pipelines.Service :=
  { cipher := none, binPath := "" }

@[reducible]
def sampleRuntime : Runtime :=
  { Runtime.sample with sha256 := fun s => s.toUTF8.data.toList }

def sampleToken : BootstrapToken where
  id := 7
  customerID := 1
  tokenPrefix := "otm_bt_0123abcd"
  tokenHash := sampleRuntime.sha256 "otm_bt_0123abcd_s"
  maxUses := 1
  usedCount := 0
  expiresAt := 3600
  revoked := false

def sampleFleet : Fleet :=
  { customers := [(1, .active)], tokens := [sampleToken], agents := [], events := [] }

def sampleMessage (uid : Store.InstanceUID) (capabilities : UInt64) : AgentToServer where
  instanceUID := uid
  capabilities := capabilities
  agentDescription := some { name := some "web", version := none, json := some "[]" }
  remoteConfigStatus := none
  effectiveConfig := none
  health := none

def sampleDraw (n : Nat) : Draw :=
  { fail := false, now := 60, id := n + 1, token := none, id_ne_nil := by simp [Store.nilUUID] }

def callOf (i : Nat) (r : Request) (steps id : Nat) : List (Event Request Draw) :=
  .start i r :: List.replicate steps (.run i (sampleDraw id))

def connectSample : List (Event Request Draw) :=
  callOf 0 (.connect 1 "Bearer otm_bt_0123abcd_s") 1 0

def oneAgent : List (Event Request Draw) :=
  connectSample ++ callOf 0 (.message 1 (sampleMessage [1] 0)) 10 20

def twoAgents : List (Event Request Draw) :=
  oneAgent ++ callOf 0 (.message 1 (sampleMessage [2] 0)) 10 21

def serverAfter [Runtime] (pipelines : UUID → List Store.ActivePipeline)
    (events : List (Event Request Draw)) : Server :=
  ((handler sampleService).run ((handler sampleService).init (newServer "" sampleFleet pipelines)) events).shared

def reachedAfter [Runtime] (events : List (Event Request Draw)) : Config Call Server :=
  (reliable sampleService).run ((reliable sampleService).init (newServer "" sampleFleet fun _ => [])) events

theorem calls_reachedAfter [Runtime] {events : List (Event Request Draw)} (hslots : ∀ e ∈ events, e.slot < 2)
    (h₀ : ((reachedAfter events).calls 0).isIdle) (h₁ : ((reachedAfter events).calls 1).isIdle) (i : Nat) :
    (reachedAfter events).calls i = .idle := by
  match i with
  | 0 => exact Call.eq_idle h₀
  | 1 => exact Call.eq_idle h₁
  | i + 2 =>
    exact System.calls_run_of_unused fun e he => by
      have := hslots e he
      omega

def twiceToken : BootstrapToken :=
  { sampleToken with maxUses := 2 }

def twiceFleet : Fleet :=
  { sampleFleet with tokens := [twiceToken] }

-- Messages about the second agent arrive on two connections, and the one on the older connection is too late to
-- enroll it. Then no further connection is made with the token.
def lostRace : List (Event Request Draw) :=
  oneAgent ++ callOf 0 (.connect 2 "Bearer otm_bt_0123abcd_s") 1 0 ++ callOf 0 (.message 1 (sampleMessage [2] 0)) 2 21 ++
    callOf 1 (.message 2 (sampleMessage [2] 0)) 10 22 ++ List.replicate 10 (.run 0 (sampleDraw 23)) ++
    callOf 0 (.connect 3 "Bearer otm_bt_0123abcd_s") 1 0

theorem token_used_up :
    letI := sampleRuntime
    let s := ((handler sampleService).run ((handler sampleService).init (newServer "" twiceFleet fun _ => [])) lostRace).shared
    s.enrollments twiceToken.id = 2 ∧ s.accepted 3 = none ∧
      twiceToken.usedCount + s.enrollments twiceToken.id ≤ twiceToken.maxUses :=
  ⟨by decide +kernel, by decide +kernel,
    @enrollments_le_maxUses sampleRuntime sampleService "" twiceFleet (fun _ => []) lostRace (by simp [twiceFleet])
      twiceToken (by simp [twiceFleet]) (by decide) (by decide) (by decide +kernel)⟩

-- The limit is checked when a connection is made only: messages for two agents on one connection enroll both.
theorem token_used_twice :
    letI := sampleRuntime
    sampleToken ∈ sampleFleet.tokens ∧ 0 < sampleToken.maxUses ∧ sampleToken.usedCount ≤ sampleToken.maxUses ∧
      ¬sampleToken.usedCount + (serverAfter (fun _ => []) twoAgents).enrollments sampleToken.id ≤
        sampleToken.maxUses := by
  refine ⟨by simp [sampleFleet], by decide, by decide, ?_⟩
  decide +kernel

end Sample
end Opamp
