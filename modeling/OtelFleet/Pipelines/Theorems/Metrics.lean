import OtelFleet.Pipelines.Theorems.Naming
import OtelFleet.Tenants.Service

open Tenants
open Catalog (lookup all Component Kind)

-- The labels of the collector's own metrics tell the pipelines apart.
namespace Pipelines

section Slugs

theorem isSlug_of_validSlug (h : validSlug s) : IsSlug s := by
  intro c hc
  unfold validSlug at h
  split at h
  case _ => simp at h
  case _ d ds hd =>
    simp only [Bool.and_eq_true, List.all_eq_true, Option.any_eq_true] at h
    obtain ⟨⟨⟨⟨hfirst, _⟩, _⟩, hmid⟩, e, hlast, he⟩ := h
    rw [hd] at hc
    obtain rfl | hc := List.mem_cons.mp hc
    · simp [isSlugChar, hfirst]
    · rw [← List.dropLast_append_getLast? e hlast] at hc
      obtain hc | hc := List.mem_append.mp hc
      · exact hmid c hc
      · rw [List.mem_singleton.mp hc]
        simp [isSlugChar, he]

theorem isSlug_append (hs : IsSlug s) (ht : IsSlug t) : IsSlug (s ++ t) := by
  intro c hc
  rw [String.toList_append] at hc
  exact (List.mem_append.mp hc).elim (hs c) (ht c)

theorem isSlug_of_tryCreate {insert : Nat → String → Insert} (hbase : IsSlug base) (hslug : IsSlug slug)
    (h : tryCreate base derived insert left attempt slug = .ok s) : IsSlug s := by
  induction left generalizing attempt slug
  case zero => cases h
  case succ left hi =>
    unfold tryCreate at h
    split at h
    case _ => exact Except.ok.inj h ▸ hslug
    case _ =>
      split_ifs at h
      exact hi (isSlug_append (isSlug_append hbase (by decide)) (isSlug_itoa _)) h
    case _ => exact hi hslug h
    case _ => cases h

theorem isSlug_of_createCustomer {insert : Nat → String → Insert}
    (h : createCustomer name slug insert = .ok s) : IsSlug s := by
  simp only [createCustomer] at h
  split_ifs at h
  cases slug
  case none => exact isSlug_of_tryCreate (deriveSlug_isSlug _) (deriveSlug_isSlug _) h
  case some slug =>
    simp only at h
    split_ifs at h with hv
    exact isSlug_of_tryCreate (isSlug_of_validSlug hv) (isSlug_of_validSlug hv) h

theorem isSlug_of_producible {s : String} (h : Producible s) : IsSlug s := by
  cases h
  case accepted h => exact isSlug_of_validSlug h
  case derived name => exact deriveSlug_isSlug name
  case created h => exact isSlug_of_createCustomer h

end Slugs

section Label

open Regex

def labelItems (key : String) : List Item :=
  [.bol, .one (.noneOf ['/']), .many (.noneOf ['/'])] ++
    (('/' :: (key.toList ++ ['_', '_'])).map (fun c => Item.one (.char c)) ++ [.many .any])

theorem parse_exporterLabelRegex (c p : String) :
    parse (exporterLabelRegex c p) = some (labelItems (pipelineKey c p)) := by
  have htail : scan .top "__.*".toList =
      some [.cls (.char '_'), .cls (.char '_'), .cls .any, .star] := rfl
  have hhead : ∀ cs, scan .top ("^[^/]+/".toList ++ cs) =
      (scan .top cs).map ([.bol, .cls (.noneOf ['/']), .plus, .cls (.char '/')] ++ ·) := by
    intro cs
    simp [scan, isMeta, Option.map_map, Function.comp_def]
  rw [parse, exporterLabelRegex, String.toList_append, String.toList_append, List.append_assoc, hhead,
    scan_quoteMeta, htail]
  generalize pipelineKey c p = key
  have hquant := quantify_chars ('/' :: (key.toList ++ ['_', '_'])) .any [.star]
  simp only [List.map_cons, List.map_append, List.map_nil, List.cons_append, List.append_assoc,
    List.nil_append] at hquant
  simp [quantify, hquant, labelItems]

theorem fullMatch_exporterLabelRegex :
    fullMatch (exporterLabelRegex c p) text = some true ↔
      ∃ a b, text = a ++ "/" ++ (pipelineKey c p ++ "__" ++ b) ∧ a ≠ "" ∧ '/' ∉ a.toList ∧ '\n' ∉ b.toList := by
  rw [fullMatch, parse_exporterLabelRegex, Option.map_some, Option.some.injEq]
  generalize pipelineKey c p = key
  have hne : '/' :: (key.toList ++ ['_', '_']) ≠ [] := List.cons_ne_nil _ _
  simp only [labelItems, List.cons_append, List.nil_append]
  rw [accepts_bol, accepts_one_iff]
  constructor
  · rintro ⟨d, _, he, hd, h⟩
    obtain ⟨a, _, rfl, ha, h⟩ := accepts_many_iff.mp h
    obtain ⟨b, rfl, hb⟩ := (accepts_chars_iff hne).mp h
    refine ⟨String.ofList (d :: a), String.ofList b, ?_, ?_, ?_, ?_⟩
    · rw [← String.toList_inj, he]
      simp
    · simp [← String.toList_inj]
    · rw [String.toList_ofList]
      have hall : ∀ x ∈ d :: a, (Class.noneOf ['/']).has x := List.forall_mem_cons.mpr ⟨hd, ha⟩
      exact fun hm => by simpa [Class.has] using hall _ hm
    · rw [String.toList_ofList]
      exact accepts_anything_iff.mp hb
  · rintro ⟨a, b, rfl, hnil, hslash, hb⟩
    cases hcs : a.toList
    case nil => exact absurd (String.toList_inj.mp hcs) hnil
    case cons d as =>
      have hclass : ∀ x ∈ d :: as, (Class.noneOf ['/']).has x = true := by
        intro x hx
        simpa [Class.has] using fun he : x = '/' => hslash (he ▸ hcs ▸ hx)
      refine ⟨d, as ++ '/' :: (key.toList ++ ['_', '_']) ++ b.toList, ?_, hclass d List.mem_cons_self, ?_⟩
      · simp [hcs]
      · refine accepts_many_iff.mpr ⟨as, '/' :: (key.toList ++ ['_', '_']) ++ b.toList, by simp,
          fun x hx => hclass x (List.mem_cons_of_mem _ hx), ?_⟩
        exact (accepts_chars_iff hne).mpr ⟨b.toList, rfl, accepts_anything_iff.mpr hb⟩

theorem fullMatch_isSome (c p text : String) : (fullMatch (exporterLabelRegex c p) text).isSome := by
  rw [fullMatch, parse_exporterLabelRegex]
  rfl

end Label

theorem type_ne_empty (h : lookup kind type = some comp) : type ≠ "" := by
  have ht : ∀ c ∈ all, c.type ≠ "" := by decide
  obtain ⟨hm, _, he⟩ := Catalog.lookup_mem h
  exact he ▸ ht comp hm

theorem newline_not_mem (h : IsSlug s) : '\n' ∉ s.toList :=
  fun hm => absurd (h _ hm) (by decide)

theorem componentID_eq (n : Node) (i : Nat) (c p : String) :
    componentID n i c p = n.type ++ "/" ++ (pipelineKey c p ++ "__" ++ nodeSuffix n i) := by
  simp only [componentID, String.append_assoc]

theorem fullMatch_componentID (hc : IsSlug c) (hp : IsSlug p) (hc' : IsSlug c')
    (hp' : IsSlug p') (ht : lookup .exporter n.type = some comp) (hn : n.Named) (i : Nat) :
    Regex.fullMatch (exporterLabelRegex c p) (componentID n i c' p') = some true ↔ (c, p) = (c', p') := by
  rw [fullMatch_exporterLabelRegex, componentID_eq]
  constructor
  · rintro ⟨a, b, he, _, hslash, _⟩
    -- The first slash ends the type, and the underscores end the slugs.
    rw [slash_sep, slash_sep] at he
    obtain ⟨_, he⟩ := Strconv.append_sep_inj (slash_not_mem_type ht) hslash he
    simp only [pipelineKey, String.append_assoc] at he
    have he : c' ++ "__" ++ (p' ++ "__" ++ nodeSuffix n i) = c ++ "__" ++ (p ++ "__" ++ b) := by
      simpa only [String.append_assoc] using he
    obtain ⟨hcc, he⟩ := underscores_inj (underscore_not_mem hc') (underscore_not_mem hc) he
    obtain ⟨hpp, _⟩ := underscores_inj (underscore_not_mem hp') (underscore_not_mem hp) he
    rw [hcc, hpp]
  · rintro ⟨⟩
    exact ⟨n.type, nodeSuffix n i, rfl, type_ne_empty ht, slash_not_mem_type ht,
      newline_not_mem (isSlug_nodeSuffix hn i)⟩

-- The label of an exporter matches the pattern of its own pipeline and of no other, and the IDs tell
-- what they are made of.
theorem metric_contract (c p c' p' : String) (hc : Producible c) (hp : Producible p) (hc' : Producible c')
    (hp' : Producible p') :
    (∀ (n : Node) (i : Nat) (comp : Component), lookup .exporter n.type = some comp →
      n.Named → Regex.fullMatch (exporterLabelRegex c p) (componentID n i c' p') =
        some (decide ((c, p) = (c', p')))) ∧
    (∀ (n n' : Node) (i i' : Nat) (kind kind' : Kind) (comp comp' : Component),
      lookup kind n.type = some comp → lookup kind' n'.type = some comp' →
      (componentID n i c p = componentID n' i' c' p' ↔
        n.type = n'.type ∧ c = c' ∧ p = p' ∧ nodeSuffix n i = nodeSuffix n' i')) ∧
    ∀ sig ∈ Signals, ∀ sig' ∈ Signals,
      (collectorPipelineID sig c p = collectorPipelineID sig' c' p' ↔ sig = sig' ∧ c = c' ∧ p = p') := by
  have hc := isSlug_of_producible hc
  have hp := isSlug_of_producible hp
  have hc' := isSlug_of_producible hc'
  have hp' := isSlug_of_producible hp'
  refine ⟨?_, ?_, ?_⟩
  · intro n i comp ht hn
    obtain ⟨matched, hm⟩ := Option.isSome_iff_exists.mp (fullMatch_isSome c p (componentID n i c' p'))
    have hiff := fullMatch_componentID hc hp hc' hp' ht hn i
    rw [hm, Option.some.injEq] at hiff
    rw [hm, Option.some.injEq, Bool.eq_iff_iff, decide_eq_true_iff]
    exact hiff
  · intro n n' i i' kind kind' comp comp' ht ht'
    constructor
    · exact componentID_inj (slash_not_mem_type ht) (slash_not_mem_type ht') hc hc' hp hp'
    · rintro ⟨htype, rfl, rfl, hsuffix⟩
      simp only [componentID, htype, hsuffix]
  · intro sig hs sig' hs'
    constructor
    · exact collectorPipelineID_inj hs hs' hc hc'
    · rintro ⟨rfl, rfl, rfl⟩
      rfl

-- The second customer of a name gets a suffix, and its exporters are not taken for those of the first.
theorem suffixed_customer_is_told_apart :
    Regex.fullMatch (exporterLabelRegex "acme" "backup")
        (componentID { type := "otlp", config := none } 0 "acme-2" "backup") = some false ∧
      Regex.fullMatch (exporterLabelRegex "acme" "backup")
        (componentID { type := "otlp", config := none } 0 "acme" "backup") = some true ∧
      createCustomer "Acme" none (fun attempt _ => if attempt = 1 then .slugExists else .created) =
        .ok "acme-2" := by
  have hfirst : Producible "acme" := .accepted (by decide)
  have hcreated : createCustomer "Acme" none
      (fun attempt _ => if attempt = 1 then .slugExists else .created) = .ok "acme-2" := by
    decide +kernel
  have hbackup : Producible "backup" := .accepted (by decide)
  have hlookup : (lookup .exporter "otlp").isSome := by decide
  obtain ⟨comp, ht⟩ := Option.isSome_iff_exists.mp hlookup
  have hnamed : Node.Named { type := "otlp", config := none } := by
    rintro name ⟨⟩
  exact ⟨(metric_contract "acme" "backup" "acme-2" "backup" hfirst hbackup (.created hcreated) hbackup).left
      _ 0 comp ht hnamed,
    (metric_contract "acme" "backup" "acme" "backup" hfirst hbackup hfirst hbackup).left _ 0 comp ht hnamed,
    hcreated⟩

end Pipelines
