import OtelFleet.Store.Theorems.History

-- Which transactions leave the listing of the active pipelines alone.
namespace Store.DB

variable {db db' : DB} {tc : TargetClass} {cid : Option UUID} {p : PipelineRow}

def listed (db : DB) (tc : TargetClass) (cid : Option UUID) (p : PipelineRow) : Option ActivePipeline :=
  if p.targetClass = tc ∧ cid.all (· = p.customerID) then db.activePipeline p else none

theorem listActivePipelines_congr
    (h : db'.pipelines.filterMap (db'.listed tc cid) = db.pipelines.filterMap (db.listed tc cid)) :
    db'.listActivePipelines tc cid = db.listActivePipelines tc cid := by
  have he : ∀ d : DB, (d.pipelines.filter fun p =>
      p.targetClass = tc ∧ cid.all (· = p.customerID)).filterMap d.activePipeline =
      d.pipelines.filterMap (d.listed tc cid) := by
    intro d
    rw [List.filterMap_filter]
    refine List.filterMap_congr fun p _ => ?_
    simp only [listed, decide_eq_true_eq]
  simp only [listActivePipelines, he, h]

theorem activePipeline_inactive (h : p.activeVersionID = none) : db.activePipeline p = none := by
  simp [activePipeline, h]

theorem listed_inactive (h : p.activeVersionID = none ∨ ¬(p.targetClass = tc ∧ cid.all (· = p.customerID))) :
    db.listed tc cid p = none := by
  obtain h | h := h
  · simp [listed, activePipeline_inactive h]
  · rw [listed, if_neg h]

theorem WF.activePipeline_eq (h : db.WF) (h' : db'.WF) (hc : db'.customers = db.customers)
    (hp : p ∈ db.pipelines) (hv : ∀ v ∈ db.versions, v.pipelineID = p.id → v ∈ db'.versions) :
    db'.activePipeline p = db.activePipeline p := by
  cases ha : p.activeVersionID
  case none => rw [activePipeline_inactive ha, activePipeline_inactive ha]
  case some id =>
    have ⟨v, hvm, hid, hvp, _⟩ := h.active p hp id ha
    have he : db'.version? id = db.version? id := by
      rw [← hid, h.version?_eq hvm, h'.version?_eq (hv v hvm hvp)]
    simp only [activePipeline, customer?, hc, ha, Option.bind_eq_bind, Option.bind_some, he]

theorem WF.listed_eq (h : db.WF) (h' : db'.WF) (hc : db'.customers = db.customers)
    (hp : p ∈ db.pipelines) (hv : ∀ v ∈ db.versions, v.pipelineID = p.id → v ∈ db'.versions) :
    db'.listed tc cid p = db.listed tc cid p := by
  simp only [listed, h.activePipeline_eq h' hc hp hv]

theorem WF.listActivePipelines_create (h : db.WF) (hc : db.createPipeline n v = .ok db') :
    db'.listActivePipelines tc cid = db.listActivePipelines tc cid := by
  have h' := h.createPipeline hc
  have ⟨_, _, hi⟩ := createPipeline_eq_ok hc
  have ⟨_, _, _, hdb⟩ := insertPipelineVersion_eq_ok hi
  refine listActivePipelines_congr ?_
  have hnew : db'.listed tc cid n.row = none := listed_inactive (.inl rfl)
  have hp : db'.pipelines = db.pipelines ++ [n.row] := by rw [hdb]
  rw [hp, List.filterMap_append, List.filterMap_cons_none hnew, List.filterMap_nil, List.append_nil]
  refine List.filterMap_congr fun p hp => h.listed_eq h' (by rw [hdb]) hp fun w hw _ => ?_
  rw [hdb]
  exact List.mem_append_left _ hw

theorem WF.listActivePipelines_version (h : db.WF) (hc : db.createPipelineVersion v = .ok db') :
    db'.listActivePipelines tc cid = db.listActivePipelines tc cid := by
  have h' := Commit.wf (.version hc) h
  have ⟨_, _, _, hdb⟩ := insertPipelineVersion_eq_ok (createPipelineVersion_eq_ok hc)
  have hp : db'.pipelines = db.pipelines := by rw [hdb]
  refine listActivePipelines_congr ?_
  rw [hp]
  refine List.filterMap_congr fun p hp => h.listed_eq h' (by rw [hdb]) hp fun w hw _ => ?_
  rw [hdb]
  exact List.mem_append_left _ hw

theorem WF.listActivePipelines_activate (h : db.WF) (hc : db.activatePipelineVersion pipelineID version = .ok db')
    (hout : ∀ p ∈ db.pipelines, p.id = pipelineID → ¬(p.targetClass = tc ∧ cid.all (· = p.customerID))) :
    db'.listActivePipelines tc cid = db.listActivePipelines tc cid := by
  have h' := h.activatePipelineVersion hc
  have ⟨v, _, _, _, _, hdb⟩ := activatePipelineVersion_eq_ok hc
  have hp : db'.pipelines = (db.setActive pipelineID v.id).pipelines := by rw [hdb]
  have hv : db'.versions = db.versions := by rw [hdb]; rfl
  refine listActivePipelines_congr ?_
  rw [hp, setActive, List.filterMap_map]
  refine List.filterMap_congr fun p hp => ?_
  simp only [Function.comp_apply]
  split_ifs with hid
  · have hne := hout p hp hid
    have hnew : db'.listed tc cid { p with activeVersionID := some v.id } = none :=
      listed_inactive (.inr hne)
    rw [hnew, listed_inactive (.inr hne)]
  · exact h.listed_eq h' (by rw [hdb]; rfl) hp fun w hw _ => hv ▸ hw

theorem activate_scope (h : db.WF) (hc : db.activatePipelineVersion pipelineID version = .ok db')
    (hr : db'.getPipeline pipelineID = .ok pipe) :
    ∀ p ∈ db.pipelines, p.id = pipelineID →
      p.targetClass = pipe.targetClass ∧ p.customerID = pipe.customerID := by
  intro p hp hid
  have h' := h.activatePipelineVersion hc
  have ⟨v, _, _, _, _, hdb⟩ := activatePipelineVersion_eq_ok hc
  have ⟨q, hq, hread⟩ := getPipeline_eq_ok hr
  have hmem : { p with activeVersionID := some v.id } ∈ db'.pipelines := by
    rw [hdb]
    exact List.mem_map.mpr ⟨p, hp, if_pos hid⟩
  have hq' := h'.pipeline?_eq hmem
  rw [show ({ p with activeVersionID := some v.id } : PipelineRow).id = pipelineID from hid, hq] at hq'
  cases hq'
  have ⟨c, _, he⟩ := Option.map_eq_some_iff.mp hread
  rw [← he]
  exact ⟨rfl, rfl⟩

theorem WF.listActivePipelines_delete (h : db.WF) {id : UUID} (hc : db.deletePipeline id = .ok db')
    (hidle : ∀ p, db.pipeline? id = some p →
      p.activeVersionID = none ∨ ¬(p.targetClass = tc ∧ cid.all (· = p.customerID))) :
    db'.listActivePipelines tc cid = db.listActivePipelines tc cid := by
  have h' := h.deletePipeline hc
  have hdb := deletePipeline_eq_ok hc
  have hp : db'.pipelines = db.pipelines.filter (·.id ≠ id) := by rw [hdb]
  refine listActivePipelines_congr ?_
  rw [hp, List.filterMap_filter]
  refine List.filterMap_congr fun p hp => ?_
  by_cases hid : p.id = id
  case pos =>
    rw [if_neg (by simpa using hid)]
    exact (listed_inactive (hidle p (hid ▸ h.pipeline?_eq hp))).symm
  case neg =>
    rw [if_pos (by simpa using hid)]
    refine h.listed_eq h' (by rw [hdb]) hp fun w hw he => ?_
    rw [hdb]
    exact List.mem_filter.mpr ⟨hw, by simpa [he] using hid⟩

section Customers

variable {id : UUID}

theorem modifyCustomer_eq_ok (h : db.modifyCustomer id f = .ok db') :
    db' = { db with customers := db.customers.map fun c => if c.id = id then f c else c } := by
  unfold modifyCustomer at h
  split_ifs at h
  cases h
  rfl

theorem WF.modifyCustomer (h : db.WF) (hc : db.modifyCustomer id f = .ok db') : db'.WF := by
  obtain rfl := modifyCustomer_eq_ok hc
  exact ⟨h.pipelineIDs, h.versionIDs, h.owned, h.numbered, h.active⟩

theorem customer?_modify (hid : ∀ c, (f c).id = c.id) (hc : db.modifyCustomer id f = .ok db') (x : UUID) :
    db'.customer? x = (db.customer? x).map fun c => if c.id = id then f c else c := by
  obtain rfl := modifyCustomer_eq_ok hc
  simp only [customer?, List.find?_map]
  congr 2
  funext c
  simp only [Function.comp_apply]
  split_ifs <;> simp [hid]

-- A change of a customer is no matter to any listing, unless it changes whether the owner of an active
-- pipeline is active.
theorem listActivePipelines_modify (hc : db.modifyCustomer id f = .ok db') (hid : ∀ c, (f c).id = c.id)
    (hslug : ∀ c, (f c).slug = c.slug) (hclient : ∀ c, (f c).clientID = c.clientID)
    (hq : (∀ p ∈ db.pipelines, p.customerID = id → p.activeVersionID = none) ∨
      ∀ c, db.customer? id = some c → ((f c).status = .active ↔ c.status = .active)) :
    db'.listActivePipelines tc cid = db.listActivePipelines tc cid := by
  have hcustomer := customer?_modify hid hc
  have hpipelines : db'.pipelines = db.pipelines := by rw [modifyCustomer_eq_ok hc]
  have hversions : db'.versions = db.versions := by rw [modifyCustomer_eq_ok hc]
  refine listActivePipelines_congr (hpipelines ▸ List.filterMap_congr fun p hp => ?_)
  suffices db'.activePipeline p = db.activePipeline p by simp only [listed, this]
  cases ha : p.activeVersionID
  case none => rw [activePipeline_inactive ha, activePipeline_inactive ha]
  case some version =>
    simp only [activePipeline, hcustomer, ha, version?, hversions]
    cases hcust : db.customer? p.customerID
    case none => rfl
    case some c =>
      have hcid : c.id = p.customerID := by simpa using List.find?_some hcust
      by_cases he : c.id = id
      case neg => simp [he]
      case pos =>
        have hstatus : (f c).status = .active ↔ c.status = .active := by
          obtain hq | hq := hq
          · exact absurd (hq p (hpipelines ▸ hp) (hcid ▸ he)) (by simp [ha])
          · exact hq c (by rw [← he, hcid, hcust])
        simp [he, hslug, hclient, hstatus]

theorem WF.listActivePipelines_eq_nil_iff (h : db.WF) (hp : p ∈ db.pipelines) (ha : p.activeVersionID ≠ none)
    (hc : db.customer? p.customerID = some c) :
    db.listActivePipelines p.targetClass (some p.customerID) = [] ↔ c.status ≠ .active := by
  have hrows (q : PipelineRow) (hq : q.customerID = p.customerID) (hs : c.status ≠ .active) :
      db.activePipeline q = none := by
    simp [activePipeline, hq, hc, hs]
  have ⟨versionID, hid⟩ := Option.ne_none_iff_exists'.mp ha
  have ⟨v, hv, hvid, _⟩ := h.active p hp versionID hid
  have hversion : db.version? versionID = some v := hvid ▸ h.version?_eq hv
  have hnil : db.listActivePipelines p.targetClass (some p.customerID) = [] ↔
      ∀ q ∈ db.pipelines, q.targetClass = p.targetClass → q.customerID = p.customerID → db.activePipeline q = none := by
    rw [listActivePipelines, ← List.length_eq_zero_iff, List.length_insertionSort, List.length_eq_zero_iff,
      List.filterMap_eq_nil_iff]
    simp only [List.mem_filter, decide_eq_true_eq, Option.all_some]
    exact ⟨fun hall q hq ht hcid => hall q ⟨hq, ht, hcid.symm⟩,
      fun hall q hq => hall q hq.left hq.right.left hq.right.right.symm⟩
  rw [hnil]
  constructor
  · intro hall hs
    have hnone := hall p hp rfl rfl
    simp [activePipeline, hc, hid, hversion, hs] at hnone
  · exact fun hs q _ _ hq => hrows q hq hs

-- A change of whether the owner of an active pipeline is active changes what is listed.
theorem WF.listActivePipelines_modify_ne (h : db.WF) (hm : db.modifyCustomer p.customerID f = .ok db')
    (hid : ∀ c, (f c).id = c.id) (hp : p ∈ db.pipelines) (ha : p.activeVersionID ≠ none)
    (hc : db.customer? p.customerID = some c) (hs : ¬((f c).status = .active ↔ c.status = .active)) :
    db'.listActivePipelines p.targetClass (some p.customerID) ≠
      db.listActivePipelines p.targetClass (some p.customerID) := by
  intro heq
  have hcid : c.id = p.customerID := by simpa using List.find?_some hc
  have hc' : db'.customer? p.customerID = some (f c) := by
    rw [customer?_modify hid hm, hc, Option.map_some, if_pos hcid]
  have hp' : p ∈ db'.pipelines := by rwa [modifyCustomer_eq_ok hm]
  have hbefore := h.listActivePipelines_eq_nil_iff hp ha hc
  rw [← heq, (h.modifyCustomer hm).listActivePipelines_eq_nil_iff hp' ha hc'] at hbefore
  exact hs (not_iff_not.mp hbefore)

end Customers

end Store.DB
