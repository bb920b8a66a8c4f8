import OtelFleet.Otelfleetctl.Theorems.Apply
import Mathlib.Data.List.ReduceOption

open Store (UUID PipelineRow VersionRow)
open Json (Numeral Number Value)
open Pipelines (Node)

-- Applying what has been exported.
namespace Otelfleetctl

section File

-- Numbers are read back by value. A zero has no sign by then.
def ByValue (reread : Numeral → Numeral) : Prop :=
  ∀ a, (reread a).encoded = a.encoded ↔ ∀ x, a = .float x → ¬x.IsNegZero

theorem encoded_mapNumbers_iff {v : Value} :
    (v.mapNumbers f).encoded = v.encoded ↔ ∀ a ∈ v.numerals, (f a).encoded = a.encoded := by
  rw [Value.encoded, Value.encoded, Value.mapNumbers_mapNumbers, Value.sortKeys_mapNumbers,
    Value.sortKeys_mapNumbers, Value.mapNumbers_eq_iff]
  simp only [Value.mem_numerals_sortKeys, Function.comp_apply]

def Expressible (n : Node) : Prop :=
  n.config.isSome ∧ ∀ x, .float x ∈ n.value.numerals → ¬x.IsNegZero

variable {reread : Numeral → Numeral}

theorem encodedNode_nodeFromFile_iff (hread : ByValue reread) (n : Node) :
    encodedNode (nodeFromFile reread n) = encodedNode n ↔ Expressible n := by
  have hvalue : (nodeFromFile reread n).value = n.value.mapNumbers reread := by
    rw [← value_mapNumbers]
    rfl
  have htype : (nodeFromFile reread n).type = n.type := rfl
  have hname : (nodeFromFile reread n).name = n.name := rfl
  have hsome : (nodeFromFile reread n).config.isSome = n.config.isSome ↔ n.config.isSome := eq_comm
  rw [encodedNode_eq_iff, hvalue, and_iff_right htype, and_iff_right hname, hsome, encoded_mapNumbers_iff, Expressible]
  refine and_congr_right fun _ => ?_
  simp only [hread _]
  constructor
  · exact fun h x hx => h _ hx x rfl
  · rintro h a ha x rfl
    exact h x ha

theorem encodedNodes_fromFile_iff (hread : ByValue reread) (nodes : List Node) :
    nodes.map encodedNode = (nodes.map (nodeFromFile reread)).map encodedNode ↔ ∀ n ∈ nodes, Expressible n := by
  rw [List.map_map, List.map_inj_left]
  exact forall₂_congr fun n _ => eq_comm.trans (encodedNode_nodeFromFile_iff hread n)

theorem graphEqual_fromFile_iff [Runtime] (hread : ByValue reread) (h : toAPIGraph gr = some g) :
    graphEqual g (.ok (g.fromFile reread)) ↔ ∀ n ∈ g.nodes, Expressible n := by
  unfold toAPIGraph at h
  split_ifs at h
  cases h
  rw [graphEqual, decide_eq_true_eq]
  simp only [PipelineGraph.encoded, PipelineGraph.fromFile, PipelineGraph.nodes, Option.getD_some,
    Option.map_some, PipelineGraph.mk.injEq, Option.some.injEq, true_and, List.forall_mem_append,
    encodedNodes_fromFile_iff hread]

end File

section Export

variable [Runtime] {c : Client} {s : Server} {reread : Numeral → Numeral}

omit [Runtime] in
theorem mapM_eq_ok {f : α → Except CallError β} {xs : List α} (h : xs.mapM f = .ok ys) :
    (∀ y, y ∈ ys ↔ ∃ x ∈ xs, f x = .ok y) ∧ ∀ x ∈ xs, ∃ y, f x = .ok y := by
  induction xs generalizing ys
  case nil =>
    cases h
    simp
  case cons x xs hi =>
    rw [List.mapM_cons] at h
    cases hx : f x
    case error e =>
      rw [hx] at h
      cases h
    case ok y' =>
      cases hxs : xs.mapM f
      case error e =>
        rw [hx, hxs] at h
        cases h
      case ok ys' =>
        rw [hx, hxs] at h
        cases h
        obtain ⟨hmem, hok⟩ := hi hxs
        exact ⟨fun y => by simp [hmem, hx, eq_comm], List.forall_mem_cons.mpr ⟨⟨y', hx⟩, hok⟩⟩

theorem Server.WF.exportPipeline_eq_ok (h : s.WF) (hv : Current s p v)
    (he : exportPipeline c s (s.view p cust) = .ok o) :
    ∃ g, readDocument v.graph = some g ∧
      o = some { name := p.name, targetClass := p.targetClass.name, graph := .ok g } := by
  unfold exportPipeline at he
  rw [hv.currentVersion_view h] at he
  dsimp only at he
  split at he
  case _ => cases he
  case _ g hg =>
    cases he
    have hg : s.getPipelineVersion c v.pipelineID v.version = .ok g := hv.owner ▸ hg
    exact ⟨g, (h.getPipelineVersion_eq_ok hv.mem).mp hg, rfl⟩

theorem Server.WF.exportCustomer_eq_ok (h : s.WF) {cs : CustomerSpec}
    (he : exportCustomer c s (s.toCustomer d) = .ok cs) :
    ∃ L, s.listPipelines d.id = .ok L ∧ cs.name = d.name ∧ cs.slug = d.slug ∧
      cs.rateLimitItemsPerSec = (s.toCustomer d).rateLimitItemsPerSec ∧
      cs.retentionDays = (s.toCustomer d).retentionDays ∧
      ∀ ps, ps ∈ cs.pipelines ↔ ∃ p ∈ s.pipelines, p.customerID = d.id ∧ ∃ v, Current s p v ∧
        ∃ g, readDocument v.graph = some g ∧ ps = { name := p.name, targetClass := p.targetClass.name, graph := .ok g } := by
  unfold exportCustomer at he
  cases hL : s.listPipelines (s.toCustomer d).id
  case error e =>
    rw [hL] at he
    cases he
  case ok L =>
    cases hspecs : L.mapM (exportPipeline c s)
    case error e =>
      simp only [hL, bind, Except.bind, hspecs] at he
      cases he
    case ok specs =>
      simp only [hL, bind, Except.bind, hspecs] at he
      cases he
      refine ⟨L, hL, rfl, rfl, rfl, rfl, fun ps => ?_⟩
      simp only [List.reduceOption_mem_iff, (mapM_eq_ok hspecs).left]
      constructor
      · rintro ⟨P, hP, he⟩
        obtain ⟨p, hp, hid, e, _, _, rfl⟩ := (h.mem_listPipelines hL).mp hP
        obtain ⟨v, hv⟩ := h.exists_current hp
        obtain ⟨g, hg, ho⟩ := h.exportPipeline_eq_ok hv he
        exact ⟨p, hp, hid, v, hv, g, hg, Option.some.inj ho⟩
      · rintro ⟨p, hp, hid, v, hv, g, hg, rfl⟩
        obtain ⟨e, he, heid, _⟩ := h.listPipelines_eq_ok.mp ⟨L, hL⟩
        have hP : s.view p e.toCustomer ∈ L := (h.mem_listPipelines hL).mpr ⟨p, hp, hid, e, he, heid, rfl⟩
        refine ⟨_, hP, ?_⟩
        have hread : s.getPipelineVersion c p.id v.version = .ok g := by
          rw [← hv.owner]
          exact (h.getPipelineVersion_eq_ok hv.mem).mpr hg
        rw [exportPipeline, hv.currentVersion_view h]
        dsimp only [Server.view]
        rw [hread]

theorem exportSpec_eq_ok {spec : Spec} (he : exportSpec c s = .ok spec) :
    (∀ cs, cs ∈ spec.customers ↔
      ∃ d ∈ s.accounts.customers, d.status ≠ .deleted ∧ exportCustomer c s (s.toCustomer d) = .ok cs) ∧
    ∀ d ∈ s.accounts.customers, d.status ≠ .deleted → ∃ cs, exportCustomer c s (s.toCustomer d) = .ok cs := by
  unfold exportSpec at he
  dsimp only at he
  generalize hcustomers : (Sorting.sortBy (·.slug) s.listCustomers).filter (·.status ≠ .deleted) = customers at he
  have hmem (cust : Customer) : cust ∈ customers ↔
      ∃ d ∈ s.accounts.customers, d.status ≠ .deleted ∧ s.toCustomer d = cust := by
    rw [← hcustomers, List.mem_filter, Sorting.mem_sortBy, mem_listCustomers, decide_eq_true_eq, and_iff_left_iff_imp]
    rintro ⟨d, _, hlive, rfl⟩
    exact hlive
  cases hm : customers.mapM (exportCustomer c s)
  case error e =>
    rw [hm] at he
    cases he
  case ok entries =>
    rw [hm] at he
    cases he
    obtain ⟨hentries, hok⟩ := mapM_eq_ok hm
    refine ⟨fun cs => ?_, fun d hd hlive => hok _ ((hmem _).mpr ⟨d, hd, hlive, rfl⟩)⟩
    rw [hentries]
    constructor
    · rintro ⟨cust, hcust, hcs⟩
      obtain ⟨d, hd, hlive, rfl⟩ := (hmem cust).mp hcust
      exact ⟨d, hd, hlive, hcs⟩
    · rintro ⟨d, hd, hlive, hcs⟩
      exact ⟨_, (hmem _).mpr ⟨d, hd, hlive, rfl⟩, hcs⟩

theorem readDocument_eq_some (h : readDocument doc = some g) : ∃ gr, toAPIGraph gr = some g := by
  unfold readDocument at h
  split at h
  case _ gr _ => exact ⟨_, h⟩
  case _ => cases h

theorem Server.WF.quietCustomer_fromFile_iff (hread : ByValue reread) (h : s.WF) (hd : d ∈ s.accounts.customers)
    (hlive : d.status ≠ .deleted)
    (he : exportCustomer c s (s.toCustomer d) = .ok cs) :
    QuietCustomer c' s.listCustomers s (cs.fromFile reread) ↔
      ∀ p ∈ s.pipelines, p.customerID = d.id → ∀ v, Current s p v →
        ∀ g, readDocument v.graph = some g → ∀ n ∈ g.nodes, Expressible n := by
  obtain ⟨L, hL, hname, hslug, hlimit, hretention, hpipelines⟩ := h.exportCustomer_eq_ok he
  have hslug' : (cs.fromFile reread).slug ≠ "" := hslug ▸ h.named d hd
  have hf : findCustomer s.listCustomers (cs.fromFile reread) = some (s.toCustomer d) :=
    (h.findCustomer_bySlug hslug').mpr
      ⟨d, ⟨hd, hlive, fun _ => hslug.symm, (absurd · hslug'), (absurd · hslug')⟩, rfl⟩
  have hk : (updates (s.toCustomer d) (cs.fromFile reread)).keys = [] :=
    updates_keys_eq_nil.mpr ⟨hname.symm, hlimit.symm, hretention.symm⟩
  have hquiet : QuietCustomer c' s.listCustomers s (cs.fromFile reread) ↔
      ∀ ps ∈ (cs.fromFile reread).pipelines, Holds s d.id ps := by
    constructor
    · rintro ⟨cust, hcust, _, L', hL', hq⟩
      cases hf.symm.trans hcust
      exact fun ps hps => (h.quietPipeline_iff hL').mp (hq ps hps)
    · exact fun hq => ⟨_, hf, hk, L, hL, fun ps hps => (h.quietPipeline_iff hL).mpr (hq ps hps)⟩
  rw [hquiet, CustomerSpec.fromFile, List.forall_mem_map]
  constructor
  · intro hq p hp hid v hv g hg
    obtain ⟨q, hq, hqid, hqn, w, hw, g', hg', heq⟩ := hq _ ((hpipelines _).mpr ⟨p, hp, hid, v, hv, g, hg, rfl⟩)
    obtain rfl := h.names q hq p hp (hqid.trans hid.symm) hqn
    obtain rfl := Current.unique h hw hv
    cases hg.symm.trans hg'
    obtain ⟨gr, hgr⟩ := readDocument_eq_some hg
    exact (graphEqual_fromFile_iff hread hgr).mp heq
  · intro hall ps hps
    obtain ⟨p, hp, hid, v, hv, g, hg, rfl⟩ := (hpipelines ps).mp hps
    obtain ⟨gr, hgr⟩ := readDocument_eq_some hg
    exact ⟨p, hp, hid, rfl, v, hv, g, hg, (graphEqual_fromFile_iff hread hgr).mpr (hall p hp hid v hv g hg)⟩

-- A state that is exported and applied again plans nothing exactly if all configs that are current are there and
-- have no negative zero.
theorem export_apply_iff (hread : ByValue reread) {c c' : Client} {dryRun : Bool} {spec : Spec} {s : Server} (h : s.WF)
    (he : exportSpec c s = .ok spec) :
    (∃ run, apply c' dryRun (spec.fromFile reread) s = .ok run ∧ run.changes = []) ↔
      ∀ p ∈ s.pipelines, Live s p.customerID → ∀ v, Current s p v →
        ∀ g, readDocument v.graph = some g → ∀ n ∈ g.nodes, Expressible n := by
  rw [apply_quiet_iff, Spec.fromFile, List.forall_mem_map]
  obtain ⟨hentries, hok⟩ := exportSpec_eq_ok he
  constructor
  · rintro hq p hp ⟨d, hd, hid, hlive⟩
    obtain ⟨cs, hcs⟩ := hok d hd hlive
    have hquiet := hq cs ((hentries cs).mpr ⟨d, hd, hlive, hcs⟩)
    exact (h.quietCustomer_fromFile_iff hread hd hlive hcs).mp hquiet p hp hid.symm
  · intro hall cs hcs
    obtain ⟨d, hd, hlive, hcs⟩ := (hentries cs).mp hcs
    exact (h.quietCustomer_fromFile_iff hread hd hlive hcs).mpr fun p hp hid v hv =>
      hall p hp ⟨d, hd, hid.symm, hlive⟩ v hv

end Export

section Sample

-- A float that is written without a point and an exponent is read as an integer.
def numeralFromFile : Numeral → Numeral
  | .float x => if 0 ≤ x.exp ∧ Strconv.exponent x < 6 then .literal (.ofFloat x) else .float x
  | a => a

theorem byValue_numeralFromFile : ByValue numeralFromFile := by
  intro a
  cases a
  case literal n => simp [numeralFromFile]
  case float x =>
    simp only [Numeral.float.injEq, forall_eq', numeralFromFile]
    split_ifs with h
    · simp only [Numeral.encoded, Number.printed, Number.ofFloat, h.left, if_true, Json.Float64.IsNegZero]
      cases hn : x.neg <;> simp
    · refine iff_of_true rfl fun hz => h ?_
      have hexp : x.exp = 0 := by simpa [hz.right] using x.canonical
      rw [Strconv.exponent, hz.right, hexp]
      decide

-- The exporter has been given without a config. The file has an empty one instead.
theorem export_missing_config :
    letI := Runtime.sample
    ∃ run, apply sampleClient false (backupSpec (some [])) .empty = .ok run ∧
      ∃ spec, exportSpec sampleClient run.server = .ok spec ∧
        ∃ run', apply sampleClient true (spec.fromFile numeralFromFile) run.server = .ok run' ∧
          run'.changes = [.newVersion "acme" "Backup"] := by
  simp only [← mem_toOption]
  decide +kernel

def verboseSpec : Spec where
  customers := [{
    name := "Acme"
    slug := "acme"
    pipelines := [{
      name := "Backup"
      graph := .ok {
        signals := some ["logs"]
        processors := some []
        exporters := some [{ type := "debug", config := some [("verbosity", .str "detailed")] }] } }] }]

theorem export_given_config :
    letI := Runtime.sample
    ∃ run, apply sampleClient false verboseSpec .empty = .ok run ∧
      ∃ spec, exportSpec sampleClient run.server = .ok spec ∧ spec.customers.length = 1 ∧
        ∃ run', apply sampleClient true (spec.fromFile numeralFromFile) run.server = .ok run' ∧ run'.changes = [] := by
  let := Runtime.sample
  obtain ⟨run, hrun, ⟨spec, hspec, hlen⟩, hconfigs⟩ :
      ∃ run ∈ (apply sampleClient false verboseSpec .empty).toOption,
        (∃ spec ∈ (exportSpec sampleClient run.server).toOption, spec.customers.length = 1) ∧
        ∀ v ∈ run.server.versions, ∀ g ∈ readDocument v.graph, ∀ n ∈ g.nodes,
          n.config.isSome ∧ n.value.numerals = [] := by
    decide +kernel
  have hrun := mem_toOption.mp hrun
  have hspec := mem_toOption.mp hspec
  obtain ⟨log, hlog, -⟩ := foldlM_settled (r := { server := .empty }) (.refl Server.empty_wf) Server.empty_wf hrun
  refine ⟨run, hrun, spec, hspec, hlen, (export_apply_iff byValue_numeralFromFile hlog.wf hspec).mpr ?_⟩
  intro p hp hlive v hv g hg n hn
  obtain ⟨hsome, hnone⟩ := hconfigs v hv.mem g hg n hn
  exact ⟨hsome, by simp [hnone]⟩

end Sample

end Otelfleetctl
